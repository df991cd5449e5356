/-
This file proves that a password change revokes everything that was granted before it.
-/

import Ircthing.Api.Credentials
import Mathlib.Logic.Relation

namespace Ircthing.Api

open Relation List Function Registry

/-! ### What an authentication check changes -/

section

variable {s : Shared} {token : Option Bytes} {now : Int}

theorem authed_frame : (s.authed token now).1 =
    { s with registry := (s.authed token now).1.registry } := by
  unfold Shared.authed
  split <;> rfl

theorem has_of_authed {other : Bytes} (held : (s.authed token now).1.registry.Has other) :
    s.registry.Has other := by
  unfold Shared.authed at held
  split at held
  · exact held
  · exact has_of_tokenValid held

theorem has_of_authed_true {known : Bytes} (valid : (s.authed (some known) now).2 = true) :
    s.registry.Has known :=
  has_of_valid valid

end

/-! ### The barrier and the generation -/

namespace Thread

def holdsPush : Thread → Bool
  | logoutLocked .. | logoutChecked .. | logoutRevoked .. | subscribeLocked .. | subscribeAuthed ..
  | pushEnding | changeBarred _ | changeWiped _ | changeInstalled _ | changeEnding => true
  | _ => false

def afterWipe : Thread → Bool
  | changeWiped _ | changeInstalled _ => true
  | _ => false

def Consistent (s : Shared) : Thread → Prop
  | loginSnapshot _ _ gen | loginComparing _ _ gen _ | loginVerified gen _
  | loginRechecked gen _ => gen ≤ s.credGen
  | changeInstalled old => old < s.hash.version
  | _ => True

theorem Consistent.mono {s next : Shared} {thread : Thread} (consistent : thread.Consistent s)
    (gen : s.credGen ≤ next.credGen) (version : s.hash.version ≤ next.hash.version) :
    thread.Consistent next := by
  cases thread <;> simp only [Consistent] at consistent ⊢ <;> omega

end Thread

variable {d : Deployment} {t : Nat} {s next : Shared} {thread after : Thread}

section

variable (act : Act d t s thread next after)
include act

theorem Act.grows :
    s.credGen ≤ next.credGen ∧ s.hash.version ≤ next.hash.version := by
  cases act
  case changeInstall => exact ⟨le_rfl, Nat.le_succ _⟩
  case changeRevoke => exact ⟨Nat.le_succ _, le_rfl⟩
  all_goals first
    | exact ⟨le_rfl, le_rfl⟩
    | rw [authed_frame]; exact ⟨le_rfl, le_rfl⟩

theorem Act.owner (owner : thread.holdsPush = true → s.pushMutationMu = some t) :
    after.holdsPush = true → next.pushMutationMu = some t := by
  cases act
  all_goals first
    | exact fun absent => (Bool.false_ne_true absent).elim
    | exact fun _ => rfl
    | exact fun _ => owner rfl
    | rw [authed_frame]; exact fun _ => owner rfl

theorem Act.barrier :
    next.pushMutationMu = s.pushMutationMu ∨ s.pushMutationMu = none ∨
      thread.holdsPush = true := by
  cases act
  case logoutLock free => exact .inr (.inl free)
  case subscribeLock free => exact .inr (.inl free)
  case changeBar free => exact .inr (.inl free)
  all_goals first
    | exact .inr (.inr rfl)
    | exact .inl rfl
    | rw [authed_frame]; exact .inl rfl

theorem Act.rows :
    next.subscriptions = s.subscriptions ∨ thread.holdsPush = true := by
  cases act
  all_goals first
    | exact .inr rfl
    | exact .inl rfl
    | rw [authed_frame]; exact .inl rfl

theorem Act.wiped (wiped : thread.afterWipe = true → s.subscriptions = []) :
    after.afterWipe = true → next.subscriptions = [] := by
  cases act
  all_goals first
    | exact fun absent => (Bool.false_ne_true absent).elim
    | exact fun _ => rfl
    | exact fun _ => wiped rfl

theorem Act.consistent (consistent : thread.Consistent s) : after.Consistent next := by
  cases act
  case loginBegin => exact le_rfl
  case changeInstall => exact Nat.lt_succ_self _
  all_goals first
    | exact consistent
    | trivial

theorem Act.known (known : ∀ token, s.registry.Has token → token ∈ s.issued) :
    ∀ token, next.registry.Has token → token ∈ next.issued := by
  cases act
  case issueToken version fresh _ now ttl current =>
    intro token held
    obtain rfl | before := has_of_issue held
    · exact mem_cons_self
    · exact .tail _ (known token before)
  case logoutRevoke =>
    exact fun token held => known token (has_deleteTokenLocked.mp held).2
  case changeRevoke => exact fun token held => absurd held not_has_revokeAll
  all_goals first
    | exact known
    | rw [authed_frame]; exact fun token held => known token (has_of_authed held)

end

/-- Between any two steps the barrier has one owner, a change that has wiped the subscriptions has
left none, and no thread is ahead of the generation. -/
structure World.Sound (w : World) : Prop where
  owner : ∀ t, (w.threads t).holdsPush = true → w.shared.pushMutationMu = some t
  wiped : ∀ t, (w.threads t).afterWipe = true → w.shared.subscriptions = []
  consistent : ∀ t, (w.threads t).Consistent w.shared
  known : ∀ token, w.shared.registry.Has token → token ∈ w.shared.issued

theorem Thread.holdsPush_of_afterWipe (wiped : thread.afterWipe = true) :
    thread.holdsPush = true := by
  cases thread <;> first | rfl | cases wiped

theorem World.Initial.sound {w : World} (initial : w.Initial) : w.Sound where
  owner t held := by
    rw [initial.idle] at held
    cases held
  wiped t held := by
    rw [initial.idle] at held
    cases held
  consistent t := by
    rw [initial.idle]
    trivial
  known token held := absurd held (initial.tokens token)

variable {w w' : World}

theorem World.Sound.exclusive (sound : w.Sound) {other : Nat}
    (first : (w.threads t).holdsPush = true) (second : (w.threads other).holdsPush = true) :
    other = t :=
  Option.some.inj ((sound.owner other second).symm.trans (sound.owner t first))

theorem World.Sound.step (sound : w.Sound) (step : StepOf d t w w') : w'.Sound := by
  obtain ⟨_, _, act, rfl⟩ := step
  refine ⟨fun other => ?_, fun other => ?_, fun other => ?_, act.known sound.known⟩
  all_goals
    dsimp only
    by_cases same : other = t
  · subst same
    rw [update_self]
    exact act.owner (sound.owner other)
  · rw [update_of_ne same]
    intro held
    have mine := sound.owner other held
    obtain kept | free | yours := act.barrier
    · exact kept.trans mine
    · rw [free] at mine
      cases mine
    · exact absurd (sound.exclusive yours held) same
  · subst same
    rw [update_self]
    exact act.wiped (sound.wiped other)
  · rw [update_of_ne same]
    intro held
    obtain kept | yours := act.rows
    · exact kept.trans (sound.wiped other held)
    · exact absurd (sound.exclusive yours (Thread.holdsPush_of_afterWipe held)) same
  · subst same
    rw [update_self]
    exact act.consistent (sound.consistent other)
  · rw [update_of_ne same]
    exact (sound.consistent other).mono act.grows.1 act.grows.2

theorem reached_sound {first : World} (initial : first.Initial)
    (reached : ReflTransGen (Steps d) first w) : w.Sound := by
  induction reached with
  | refl => exact initial.sound
  | tail _ step hypothesis =>
    obtain ⟨_, step⟩ := step
    exact hypothesis.step step

/-! ### After the revocation -/

/-- A revocation: the generation it began, the version of the hash it made obsolete, and the
tokens that had been issued. -/
structure Revocation where
  gen : Nat
  old : Nat
  issued : List Bytes

structure Shared.Honours (k : Revocation) (s : Shared) : Prop where
  gen : k.gen ≤ s.credGen
  version : k.old < s.hash.version
  issued : ∀ token ∈ k.issued, token ∈ s.issued
  tokens : ∀ token, s.registry.Has token → token ∉ k.issued
  minted : ∀ entry ∈ s.minted, entry.1 ∈ k.issued ∨ k.old < entry.2
  rows : ∀ row ∈ s.subscriptions, ∀ token ∈ row.writers, token ∉ k.issued

def Thread.Honours (k : Revocation) : Thread → Prop
  | loginComparing _ _ gen hash => k.gen ≤ gen → k.old < hash.version
  | loginVerified gen version | loginRechecked gen version => k.gen ≤ gen → k.old < version
  | subscribeAuthed token _ _ _ => token ∉ k.issued
  | _ => True

variable {k : Revocation}

theorem Shared.Honours.authed {token : Option Bytes} {now : Int} (honours : s.Honours k) :
    (s.authed token now).1.Honours k := by
  rw [authed_frame]
  exact { honours with tokens := fun other held => honours.tokens other (has_of_authed held) }

theorem Shared.Honours.upsert {endpoint p256dh auth token : Bytes} (honours : s.Honours k)
    (new : token ∉ k.issued) : (s.upsert endpoint p256dh auth token).Honours k := by
  refine { honours with rows := ?_ }
  unfold Shared.upsert
  split
  · intro row member
    obtain ⟨before, stored, rfl⟩ := mem_map.mp member
    split
    · exact forall_mem_cons.mpr ⟨new, honours.rows before stored⟩
    · exact honours.rows before stored
  · intro row member
    obtain before | added := mem_append.mp member
    · exact honours.rows row before
    · obtain rfl := mem_singleton.mp added
      exact forall_mem_singleton.mpr new

theorem Act.honours (act : Act d t s thread next after) (shared : s.Honours k)
    (mine : thread.Honours k) : next.Honours k ∧ after.Honours k := by
  cases act
  case loginLoad => exact ⟨shared, fun _ => shared.version⟩
  case issueToken gen version token now ttl current fresh =>
    refine ⟨{ shared with issued := ?_, tokens := ?_, minted := ?_ }, trivial⟩
    · exact fun old member => .tail _ (shared.issued old member)
    · intro other held
      obtain rfl | before := has_of_issue held
      · exact fun old => fresh (shared.issued _ old)
      · exact shared.tokens other before
    · exact forall_mem_cons.mpr ⟨.inr (mine (current ▸ shared.gen)), shared.minted⟩
  case logoutRevoke =>
    exact ⟨{ shared with
      tokens := fun other held => shared.tokens other (has_deleteTokenLocked.mp held).2 },
      trivial⟩
  case logoutUnsubscribe =>
    exact ⟨{ shared with
      rows := fun row member => shared.rows row (mem_of_mem_filter member) }, trivial⟩
  case subscribeAuth valid =>
    exact ⟨shared.authed, shared.tokens _ (has_of_authed_true valid)⟩
  case subscribeStore => exact ⟨shared.upsert mine, trivial⟩
  case changeWipe => exact ⟨{ shared with rows := nofun }, trivial⟩
  case changeInstall =>
    exact ⟨{ shared with version := Nat.lt_succ_of_lt shared.version }, trivial⟩
  case changeRevoke =>
    exact ⟨{ shared with
      gen := Nat.le_succ_of_le shared.gen
      tokens := fun other held => absurd held not_has_revokeAll }, trivial⟩
  all_goals first
    | exact ⟨shared, trivial⟩
    | exact ⟨shared, mine⟩
    | exact ⟨shared.authed, trivial⟩
    | exact ⟨{ shared with }, trivial⟩

structure World.Honours (k : Revocation) (w : World) : Prop where
  shared : w.shared.Honours k
  threads : ∀ t, (w.threads t).Honours k

theorem World.Sound.revokes (sound : w.Sound) {c old : Nat}
    (installed : w.threads c = .changeInstalled old) (revokes : StepOf d c w w') :
    w'.Honours ⟨w.shared.credGen + 1, old, w.shared.issued⟩ := by
  obtain ⟨shared, _, act, rfl⟩ := revokes
  have replaced := sound.consistent c
  have wiped := sound.wiped c (by rw [installed]; rfl)
  rw [installed] at act replaced
  cases act
  refine ⟨⟨le_rfl, replaced, fun _ => id, ?tokens, ?minted, ?rows⟩, fun other => ?_⟩
  case tokens => exact fun token held => absurd held not_has_revokeAll
  case minted => exact fun entry member => .inl (mem_map_of_mem member)
  case rows =>
    rw [wiped]
    exact nofun
  dsimp only
  by_cases same : other = c
  · subst same
    rw [update_self]
    trivial
  rw [update_of_ne same]
  have behind := sound.consistent other
  have barred : (w.threads other).holdsPush = true → False := fun held =>
    same (sound.exclusive (by rw [installed]; rfl) held)
  cases at_ : w.threads other with
  | loginComparing username password gen hash | loginVerified gen version
  | loginRechecked =>
    rw [at_] at behind
    exact fun new => absurd new (Nat.not_le_of_lt (Nat.lt_succ_of_le behind))
  | subscribeAuthed => exact (barred (by rw [at_]; rfl)).elim
  | _ => trivial

theorem World.Honours.steps (honours : w.Honours k) (steps : ReflTransGen (Steps d) w w') :
    w'.Honours k := by
  induction steps with
  | refl => exact honours
  | tail _ step hypothesis =>
    obtain ⟨t, shared, _, act, rfl⟩ := step
    obtain ⟨kept, _⟩ := act.honours hypothesis.shared (hypothesis.threads t)
    refine ⟨kept, fun other => ?_⟩
    dsimp only
    by_cases same : other = t
    · subst same
      rwa [update_self]
    · rw [update_of_ne same]
      exact hypothesis.threads other

/-- In every state after the revoking critical section of a password change, every token was issued
after it by a login that verified a newer hash, and every stored subscription was written by
requests with such tokens. -/
theorem rotation_revokes_everything (d : Deployment) (first : World) (initial : first.Initial)
    (before revoked later : World) (reached : ReflTransGen (Steps d) first before)
    (c old : Nat) (installed : before.threads c = .changeInstalled old)
    (revokes : StepOf d c before revoked) (continued : ReflTransGen (Steps d) revoked later) :
    (∀ token, later.shared.registry.Has token →
      token ∉ before.shared.issued ∧ ¬ before.shared.registry.Has token ∧
        (∃ version, (token, version) ∈ later.shared.minted) ∧
        ∀ version, (token, version) ∈ later.shared.minted → old < version) ∧
      ∀ row ∈ later.shared.subscriptions, ∀ token ∈ row.writers,
        token ∉ before.shared.issued := by
  have sound := reached_sound initial reached
  have honours := ((sound.revokes installed revokes).steps continued).shared
  have whole := (reached.tail ⟨c, revokes⟩).trans continued
  refine ⟨fun token held => ?_, honours.rows⟩
  have new := honours.tokens token held
  obtain ⟨⟨_, version⟩, minted, rfl⟩ :=
    mem_map.mp ((reached_sound initial whole).known token held)
  refine ⟨new, fun existed => new (sound.known _ existed), ⟨version, minted⟩,
    fun version verified => ?_⟩
  obtain old | newer := honours.minted _ verified
  · exact absurd old new
  · exact newer

/-! ### A rotation under attack -/

def plainDeployment : Deployment where
  username := lit "ann"
  compares hash password := hash = password

def stolenPassword : Bytes := lit "stolen password"

def freshServer : World where
  shared :=
    { credGen := 0, hash := ⟨0, stolenPassword⟩, registry := {}, storedHash := none
      subscriptions := [], passwordMu := none, pushMutationMu := none, minted := [] }
  threads _ := .idle

theorem freshServer_initial : freshServer.Initial := ⟨fun _ => rfl, fun _ => Bool.false_ne_true⟩

theorem Steps.intro (t : Nat) (act : Act d t w.shared (w.threads t) next after) :
    Steps d w ⟨next, update w.threads t after⟩ :=
  ⟨t, next, after, act, rfl⟩

/-- The revoking step of a password change that a run has brought there, and the run after it
that has not gone on yet. -/
theorem revoke_of_reached {first : World} (c old : Nat)
    (reached : ReflTransGen (Steps d) first w) (installed : w.threads c = .changeInstalled old) :
    let revoked : World :=
      ⟨{ w.shared with
          credGen := w.shared.credGen + 1
          registry := w.shared.registry.revokeAll.1 },
        update w.threads c .changeEnding⟩
    ReflTransGen (Steps d) first revoked ∧ StepOf d c w revoked ∧
      ReflTransGen (Steps d) revoked revoked :=
  have revokes := installed ▸ Act.changeRevoke _ _
  ⟨reached.tail (.intro c revokes), ⟨_, _, revokes, rfl⟩, .refl⟩

/-- The thief logs in and plants a subscription, and a second login of the thief is refused because
the password has been changed. The owner logs in, and the token of the thief is gone. -/
theorem rotation_revokes_everything_thief :
    ∃ before revoked later, ReflTransGen (Steps plainDeployment) freshServer before ∧
      before.shared.issued = [lit "thief"] ∧ StepOf plainDeployment 1 before revoked ∧
      ReflTransGen (Steps plainDeployment) revoked later ∧
      later.shared.registry.Has (lit "owner") ∧ ¬ later.shared.registry.Has (lit "thief") := by
  have run := ReflTransGen.refl (r := Steps plainDeployment) (a := freshServer)
    |>.tail (.intro 0 (.loginBegin _ (lit "ann") stolenPassword))
    |>.tail (.intro 0 (.loginLoad _ _ _ _))
    |>.tail (.intro 0 (.loginMatch _ _ _ _ _ (by decide)))
    |>.tail (.intro 0 (.loginRecheck _ _ _ rfl))
    |>.tail (.intro 0 (.issueToken _ _ _ (lit "thief") 0 100 rfl (by decide)))
    |>.tail (.intro 3 (.subscribeLock _ (some (lit "thief")) (lit "https://push.test") [] [] rfl))
    |>.tail (.intro 3 (.subscribeAuth _ _ _ _ _ 1 (by decide +kernel)))
    |>.tail (.intro 3 (.subscribeStore _ _ _ _ _ (by decide +kernel)))
    |>.tail (.intro 3 (.pushUnlock _))
    |>.tail (.intro 2 (.loginBegin _ (lit "ann") stolenPassword))
    |>.tail (.intro 2 (.loginLoad _ _ _ _))
    |>.tail (.intro 2 (.loginMatch _ _ _ _ _ (by decide)))
    |>.tail (.intro 2 (.loginRecheck _ _ _ rfl))
    |>.tail (.intro 1 (.changeLock _ (some (lit "thief")) stolenPassword (lit "new password") rfl))
    |>.tail (.intro 1 (.changeAuth _ _ _ _ 2 (by decide +kernel)))
    |>.tail (.intro 1 (.changeLoad _ _ _))
    |>.tail (.intro 1 (.changeMatch _ _ _ _ (by decide)))
    |>.tail (.intro 1 (.changeHash _ _ (lit "new password") (by decide)))
    |>.tail (.intro 1 (.changeBar _ _ rfl))
    |>.tail (.intro 1 (.changeWipe _ _))
    |>.tail (.intro 1 (.changeInstall _ _))
  obtain ⟨-, revokes, stay⟩ := revoke_of_reached 1 0 run rfl
  have continued := stay
    |>.tail (.intro 2 (.issueRotated _ _ _ (by decide)))
    |>.tail (.intro 4 (.loginBegin _ (lit "ann") (lit "new password")))
    |>.tail (.intro 4 (.loginLoad _ _ _ _))
    |>.tail (.intro 4 (.loginMatch _ _ _ _ _ (by decide)))
    |>.tail (.intro 4 (.loginRecheck _ _ _ rfl))
    |>.tail (.intro 4 (.issueToken _ _ _ (lit "owner") 3 100 rfl (by decide)))
  refine ⟨_, _, _, run, rfl, revokes, continued, by decide +kernel, fun held => ?_⟩
  obtain ⟨new, -⟩ := (rotation_revokes_everything plainDeployment freshServer freshServer_initial
    _ _ _ run 1 0 rfl revokes continued).1 _ held
  exact new (by decide)

end Ircthing.Api
