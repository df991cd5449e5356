/-
This file proves what the registry of sessions keeps true over every run.
-/

import Ircthing.Api.Sessions
import Ircthing.Library.Machine

namespace Ircthing.Api

open Library List Option Dict Registry Machine

variable {r next : Registry} {now : Int}

/-! ### Critical sections -/

inductive RegistryEvent
  | registered (token : Bytes) (cancel : Cancel)
  | unregistered (token : Bytes) (cancel : Cancel)
  | handedBack (cancels : List Cancel)
deriving DecidableEq

/-- The registry with its counters, the generation of the credentials, and the history. -/
structure SessionServer where
  registry : Registry := {}
  wsNextID : Nat := 0
  streamNextID : Nat := 0
  credGen : Nat := 0
  history : List RegistryEvent := []

variable {server : SessionServer}

inductive SessionAction
  | issueToken (gen : Nat) (token : Bytes) (now ttl : Int)
  | tokenValid (token : Bytes) (now : Int)
  | logout (token : Bytes)
  | changePassword
  | registerWSCancel (token : Bytes) (now : Int)
  | registerStreamCancel (token : Bytes) (now : Int)
  | unregister (token : Bytes) (cancel : Cancel)
deriving DecidableEq

namespace SessionServer

variable (server)

def deletes (result : Registry × List Cancel) : SessionServer :=
  { server with
    registry := result.1
    history := server.history ++ [.handedBack result.2] }

def enters (token : Bytes) (cancel : Cancel) (registry : Registry) : SessionServer :=
  { server with
    registry := registry
    history := server.history ++ [.registered token cancel] }

def unregister (registry : Registry) (token : Bytes) : Cancel → Registry
  | .socket id => registry.unregisterWS token id
  | .stream id => registry.unregisterStream token id

def step : SessionAction → Option SessionServer
  | .issueToken gen token now ttl =>
    if server.credGen ≠ gen then some server
    else some (server.deletes (server.registry.issue token now ttl))
  | .tokenValid token now => some (server.deletes (server.registry.tokenValid token now).1)
  | .logout token => some (server.deletes (server.registry.deleteTokenLocked token))
  | .changePassword =>
    some ({ server with credGen := server.credGen + 1 }.deletes server.registry.revokeAll)
  | .registerWSCancel token now =>
    match server.registry.registerWSCancel token server.wsNextID now with
    | none => some server
    | some registry =>
      some ({ server with wsNextID := server.wsNextID + 1 }.enters token
        (.socket server.wsNextID) registry)
  | .registerStreamCancel token now =>
    match server.registry.registerStreamCancel token server.streamNextID now with
    | none => some server
    | some registry =>
      some ({ server with streamNextID := server.streamNextID + 1 }.enters token
        (.stream server.streamNextID) registry)
  | .unregister token cancel =>
    if server.history.contains (.registered token cancel) then
      some { server with
        registry := unregister server.registry token cancel
        history := server.history ++ [.unregistered token cancel] }
    else none

end SessionServer

/-- The registration is on the token: it was made, and since then it was neither taken back nor
handed back. -/
def OpenOn (history : List RegistryEvent) (token : Bytes) (cancel : Cancel) : Prop :=
  ∃ before after, history = before ++ .registered token cancel :: after ∧
    .unregistered token cancel ∉ after ∧ ∀ cancels, .handedBack cancels ∈ after → cancel ∉ cancels

/-! ### Deletions -/

/-- Tokens were deleted: the bound on their number is kept, every registration is kept or handed
back, and none is left on a token that is gone. -/
structure Sweeps (r next : Registry) (cancels : List Cancel) : Prop where
  size : r.tokens.size ≤ maxSessions → next.tokens.size ≤ maxSessions
  kept : ∀ token, ∀ cancel ∈ r.registered token, cancel ∈ next.registered token ∨ cancel ∈ cancels
  current : (∀ token, ∀ cancel ∈ r.registered token, r.Has token) →
    ∀ token, ∀ cancel ∈ next.registered token, next.Has token

theorem Sweeps.refl (r : Registry) : Sweeps r r [] :=
  ⟨id, fun _ _ member => .inl member, id⟩

theorem Sweeps.trans {last : Registry} {cancels more : List Cancel} (first : Sweeps r next cancels)
    (second : Sweeps next last more) : Sweeps r last (cancels ++ more) := by
  refine ⟨second.size ∘ first.size, fun token cancel member => ?_,
    fun current => second.current (first.current current)⟩
  rcases first.kept token cancel member with kept | handed
  · rcases second.kept token cancel kept with kept | handed
    · exact .inl kept
    · exact .inr (mem_append_right _ handed)
  · exact .inr (mem_append_left _ handed)

theorem registered_deleteTokenLocked (r : Registry) (token other : Bytes) :
    (r.deleteTokenLocked token).1.registered other =
      if other = token then [] else r.registered other := by
  unfold registered deleteTokenLocked
  rw [lookup_erase_eq, lookup_erase_eq]
  split <;> rfl

theorem sweeps_deleteTokenLocked (r : Registry) (token : Bytes) :
    Sweeps r (r.deleteTokenLocked token).1 (r.deleteTokenLocked token).2 := by
  refine ⟨fun bound => ?_, fun other cancel member => ?_, fun current other cancel member => ?_⟩
  · have erased := size_erase r.tokens token
    show size (r.tokens.erase token) ≤ maxSessions
    split at erased <;> omega
  · rw [registered_deleteTokenLocked]
    split
    next same =>
      rw [same] at member
      exact .inr member
    · exact .inl member
  · rw [registered_deleteTokenLocked] at member
    split at member
    · cases member
    next different =>
      exact has_deleteTokenLocked.mpr ⟨different, current other cancel member⟩

theorem sweeps_deleteTokens (r : Registry) (tokens : List Bytes) :
    Sweeps r (r.deleteTokens tokens).1 (r.deleteTokens tokens).2 := by
  unfold deleteTokens
  refine foldlRecOn (motive := fun pair : Registry × List Cancel => Sweeps r pair.1 pair.2)
    tokens _ (Sweeps.refl r) ?_
  intro pair sweeps token _
  exact sweeps.trans (sweeps_deleteTokenLocked pair.1 token)

theorem scan_has {step : Option (Bytes × Int) → (Sigma fun _ : Bytes => Int) → Option (Bytes × Int)}
    (chooses : ∀ best entry, step (some best) entry = some best ∨
      step (some best) entry = some (entry.1, entry.2)) :
    ∀ (later : List (Sigma fun _ : Bytes => Int)) (best : Bytes × Int),
      (∀ entry ∈ later, entry ∈ r.tokens.entries) → ⟨best.1, best.2⟩ ∈ r.tokens.entries →
      ∃ token, (later.foldl step (some best)).map (·.1) = some token ∧ r.Has token := by
  intro later
  induction later with
  | nil =>
    intro best _ member
    refine ⟨best.1, rfl, ?_⟩
    rw [Registry.Has, lookup_of_mem member]
    rfl
  | cons entry later ih =>
    intro best within member
    have rest : ∀ entry ∈ later, entry ∈ r.tokens.entries :=
      fun entry later => within entry (.tail _ later)
    rw [foldl_cons]
    rcases chooses best entry with kept | taken
    · rw [kept]
      exact ih best rest member
    · rw [taken]
      exact ih _ rest (within entry mem_cons_self)

theorem has_oldest (some_ : r.tokens.entries ≠ []) :
    ∃ token, r.oldest = some token ∧ r.Has token := by
  obtain ⟨first, later, shape⟩ := exists_cons_of_ne_nil some_
  unfold oldest
  rw [shape, foldl_cons]
  refine scan_has ?_ later (first.1, first.2)
    (fun entry member => shape ▸ .tail _ member) (shape ▸ mem_cons_self)
  intro best entry
  dsimp only
  split
  · exact .inr rfl
  · exact .inl rfl

theorem sweeps_evict (fuel : Nat) (r : Registry) (cancels : List Cancel) (start : Registry)
    (sweeps : Sweeps start r cancels) (enough : r.tokens.size < fuel + maxSessions) :
    Sweeps start (evict fuel (r, cancels)).1 (evict fuel (r, cancels)).2 ∧
      (evict fuel (r, cancels)).1.tokens.size < maxSessions := by
  induction fuel generalizing r cancels with
  | zero => exact ⟨sweeps, by rwa [Nat.zero_add] at enough⟩
  | succ fuel ih =>
    rw [evict]
    split
    next full =>
      obtain ⟨token, found, has⟩ := has_oldest (r := r) (by
        intro empty
        rw [empty] at full
        exact absurd full (by decide))
      rw [found]
      refine ih _ _ (sweeps.trans (sweeps_deleteTokenLocked r token)) ?_
      have erased := size_erase r.tokens token
      rw [if_pos (show (r.tokens.lookup token).isSome = true from has)] at erased
      show size (r.tokens.erase token) < fuel + maxSessions
      omega
    next room =>
      exact ⟨sweeps, Nat.lt_of_not_le room⟩

theorem Sweeps.insert {swept : Registry} {cancels : List Cancel} (sweeps : Sweeps r swept cancels)
    (room : swept.tokens.size < maxSessions) (token : Bytes) (expiry : Int) :
    Sweeps r { swept with tokens := swept.tokens.insert token expiry } cancels := by
  refine ⟨fun _ => ?_, sweeps.kept, fun current other cancel member => ?_⟩
  · have inserted := size_insert swept.tokens token expiry
    show Dict.size (swept.tokens.insert token expiry) ≤ maxSessions
    split at inserted <;> omega
  · have has := sweeps.current current other cancel member
    unfold Registry.Has at has ⊢
    rw [lookup_insert_eq]
    split
    · rfl
    · exact has

theorem sweeps_issue (r : Registry) (token : Bytes) (now ttl : Int) :
    Sweeps r (r.issue token now ttl).1 (r.issue token now ttl).2 := by
  obtain ⟨sweeps, room⟩ := sweeps_evict _ _ _ r
    (sweeps_deleteTokens r ((r.tokens.entries.filter fun entry => now > entry.2).map (·.1)))
    (Nat.lt_add_of_pos_right (by decide))
  exact sweeps.insert room token (now + ttl)

theorem sweeps_tokenValid (r : Registry) (token : Bytes) (now : Int) :
    Sweeps r (r.tokenValid token now).1.1 (r.tokenValid token now).1.2 := by
  unfold tokenValid
  split
  · exact Sweeps.refl r
  · split
    · exact sweeps_deleteTokenLocked r token
    · exact Sweeps.refl r

/-! ### Registrations -/

variable {cancels : Dict Bytes (List Nat)} {token other : Bytes} {id member : Nat}
  {action : SessionAction}

theorem mem_enter :
    member ∈ ((enter cancels token id).lookup other).getD [] ↔
      member ∈ (cancels.lookup other).getD [] ∨ other = token ∧ member = id := by
  unfold enter
  rw [lookup_insert_eq]
  by_cases same : other = token
  · subst same
    simp
  · simp [same]

theorem mem_leave :
    member ∈ ((leave cancels token id).lookup other).getD [] ↔
      member ∈ (cancels.lookup other).getD [] ∧ ¬ (other = token ∧ member = id) := by
  unfold leave
  split
  next absent =>
    by_cases same : other = token
    · subst same
      simp [absent]
    · simp [same]
  next ids found =>
    dsimp only
    by_cases same : other = token
    · subst same
      have left : member ∈ ids.filter (· != id) ↔
          member ∈ ids ∧ ¬ (other = other ∧ member = id) := by simp
      split
      next empty =>
        rw [empty] at left
        rw [lookup_erase_eq, if_pos rfl, found]
        exact left
      · rw [lookup_insert_eq, if_pos rfl, found]
        exact left
    · split
      · rw [lookup_erase_eq]
        simp [same]
      · rw [lookup_insert_eq]
        simp [same]

theorem socket_mem_registered :
    .socket id ∈ r.registered token ↔ id ∈ (r.wsCancels.lookup token).getD [] := by
  simp [registered]

theorem stream_mem_registered :
    .stream id ∈ r.registered token ↔ id ∈ (r.streamCancels.lookup token).getD [] := by
  simp [registered]

/-- A registration that was not refused is on its token, which is there, beside the others. -/
structure Enters (r next : Registry) (token : Bytes) (cancel : Cancel) : Prop where
  has : r.Has token
  tokens : next.tokens = r.tokens
  members : ∀ other found, found ∈ next.registered other ↔
    found ∈ r.registered other ∨ other = token ∧ found = cancel

theorem has_of_admits (admitted : r.admits token now = true) : r.Has token := by
  obtain ⟨_, live⟩ := Bool.and_eq_true_iff.mp admitted
  obtain ⟨_, found, _⟩ := (Option.any_eq_true ..).mp live
  rw [Registry.Has, found]
  rfl

theorem registerWSCancel_enters (entered : r.registerWSCancel token id now = some next) :
    Enters r next token (.socket id) := by
  obtain ⟨admitted, result⟩ := ite_none_right_eq_some.mp entered
  cases result
  refine ⟨has_of_admits admitted, rfl, fun other found => ?_⟩
  cases found with
  | socket =>
    rw [socket_mem_registered, socket_mem_registered, Cancel.socket.injEq]
    exact mem_enter
  | stream => simp [stream_mem_registered]

theorem registerStreamCancel_enters (entered : r.registerStreamCancel token id now = some next) :
    Enters r next token (.stream id) := by
  obtain ⟨admitted, result⟩ := ite_none_right_eq_some.mp entered
  cases result
  refine ⟨has_of_admits admitted, rfl, fun other found => ?_⟩
  cases found with
  | socket => simp [socket_mem_registered]
  | stream =>
    rw [stream_mem_registered, stream_mem_registered, Cancel.stream.injEq]
    exact mem_enter

theorem mem_unregister {cancel found : Cancel} :
    found ∈ (SessionServer.unregister r token cancel).registered other ↔
      found ∈ r.registered other ∧ ¬ (other = token ∧ found = cancel) := by
  cases cancel with
  | socket =>
    cases found with
    | socket =>
      rw [socket_mem_registered, socket_mem_registered, Cancel.socket.injEq]
      exact mem_leave
    | stream => simp [stream_mem_registered, SessionServer.unregister, unregisterWS]
  | stream =>
    cases found with
    | socket =>
      simp [socket_mem_registered, SessionServer.unregister, unregisterStream]
    | stream =>
      rw [stream_mem_registered, stream_mem_registered, Cancel.stream.injEq]
      exact mem_leave

theorem tokens_unregister (r : Registry) (token : Bytes) (cancel : Cancel) :
    (SessionServer.unregister r token cancel).tokens = r.tokens := by
  cases cancel <;> rfl

/-! ### Steps -/

inductive SessionTurn (server next : SessionServer) : SessionAction → Prop
  | idle {action : SessionAction} (same : next = server) : SessionTurn server next action
  | swept {action : SessionAction} (cancels : List Cancel)
      (sweeps : Sweeps server.registry next.registry cancels)
      (written : next.history = server.history ++ [.handedBack cancels]) :
      SessionTurn server next action
  | entered {action : SessionAction} (token : Bytes) (cancel : Cancel)
      (enters : Enters server.registry next.registry token cancel)
      (written : next.history = server.history ++ [.registered token cancel]) :
      SessionTurn server next action
  | left (token : Bytes) (cancel : Cancel)
      (result : next.registry = SessionServer.unregister server.registry token cancel)
      (written : next.history = server.history ++ [.unregistered token cancel]) :
      SessionTurn server next (.unregister token cancel)

theorem step_turn {next : SessionServer}
    (taken : server.step action = some next) : SessionTurn server next action := by
  cases action with
  | issueToken =>
    unfold SessionServer.step at taken
    dsimp only at taken
    split at taken
    · cases taken
      exact .idle rfl
    · cases taken
      exact .swept _ (sweeps_issue ..) rfl
  | tokenValid =>
    cases taken
    exact .swept _ (sweeps_tokenValid ..) rfl
  | logout =>
    cases taken
    exact .swept _ (sweeps_deleteTokenLocked ..) rfl
  | changePassword =>
    cases taken
    exact .swept _ (sweeps_deleteTokens ..) rfl
  | registerWSCancel token =>
    unfold SessionServer.step at taken
    dsimp only at taken
    split at taken
    · cases taken
      exact .idle rfl
    next entered =>
      cases taken
      exact .entered token _ (registerWSCancel_enters entered) rfl
  | registerStreamCancel token =>
    unfold SessionServer.step at taken
    dsimp only at taken
    split at taken
    · cases taken
      exact .idle rfl
    next entered =>
      cases taken
      exact .entered token _ (registerStreamCancel_enters entered) rfl
  | unregister token cancel =>
    obtain ⟨_, result⟩ := ite_none_right_eq_some.mp taken
    cases result
    exact .left token cancel rfl rfl

theorem OpenOn.of_append {history : List RegistryEvent} {event : RegistryEvent} {cancel : Cancel}
    (opened : OpenOn (history ++ [event]) token cancel) :
    event = .registered token cancel ∨
      OpenOn history token cancel ∧ event ≠ .unregistered token cancel ∧
        ∀ cancels, event = .handedBack cancels → cancel ∉ cancels := by
  obtain ⟨before, after, shape, untaken, unhanded⟩ := opened
  cases eq_nil_or_concat after with
  | inl empty =>
    subst empty
    obtain ⟨_, same⟩ := append_inj' shape rfl
    exact .inl (singleton_inj.mp same)
  | inr some_ =>
    obtain ⟨rest, _, rfl⟩ := some_
    rw [concat_eq_append] at shape untaken
    simp only [concat_eq_append] at unhanded
    rw [← cons_append, ← append_assoc] at shape
    obtain ⟨same, last_⟩ := append_inj' shape rfl
    cases singleton_inj.mp last_
    refine .inr ⟨⟨before, rest, same, ?_, ?_⟩, ?_, ?_⟩
    · exact fun member => untaken (mem_append_left _ member)
    · exact fun cancels member => unhanded cancels (mem_append_left _ member)
    · rintro rfl
      exact untaken (mem_append_right _ mem_cons_self)
    · rintro cancels rfl
      exact unhanded cancels (mem_append_right _ mem_cons_self)

/-! ### Runs -/

structure Registered (server : SessionServer) : Prop where
  size : server.registry.tokens.size ≤ maxSessions
  current : ∀ token, ∀ cancel ∈ server.registry.registered token, server.registry.Has token
  counted : ∀ token cancel, OpenOn server.history token cancel →
    cancel ∈ server.registry.registered token

theorem Registered.step {next : SessionServer} (registered : Registered server)
    (taken : server.step action = some next) : Registered next := by
  cases step_turn taken with
  | idle same => exact same ▸ registered
  | swept cancels sweeps written =>
    refine ⟨sweeps.size registered.size, sweeps.current registered.current,
      fun token cancel opened => ?_⟩
    rw [written] at opened
    obtain impossible | ⟨opened, _, unhanded⟩ := opened.of_append
    · cases impossible
    · exact (sweeps.kept token cancel (registered.counted token cancel opened)).resolve_right
        (unhanded cancels rfl)
  | entered _ _ enters written =>
    refine ⟨enters.tokens ▸ registered.size, fun other found member => ?_,
      fun other found opened => (enters.members other found).mpr ?_⟩
    · rw [Registry.Has, enters.tokens]
      rcases (enters.members other found).mp member with before | ⟨rfl, _⟩
      · exact registered.current other found before
      · exact enters.has
    · rw [written] at opened
      obtain same | ⟨opened, _, _⟩ := opened.of_append
      · cases same
        exact .inr ⟨rfl, rfl⟩
      · exact .inl (registered.counted other found opened)
  | left token cancel result written =>
    have same : next.registry.tokens = server.registry.tokens :=
      result ▸ tokens_unregister server.registry token cancel
    refine ⟨same ▸ registered.size, fun other found member => ?_, fun other found opened => ?_⟩
    · rw [result] at member
      rw [Registry.Has, same]
      exact registered.current other found (mem_unregister.mp member).1
    · rw [written] at opened
      rw [result]
      obtain impossible | ⟨opened, untaken, _⟩ := opened.of_append
      · cases impossible
      · refine mem_unregister.mpr ⟨registered.counted other found opened, ?_⟩
        rintro ⟨rfl, rfl⟩
        exact untaken rfl

theorem registered_of_reaches
    (reached : Reaches SessionServer.step (fun _ _ => True) {} server) :
    Registered server := by
  refine reached.invariant ⟨by decide, ?_, ?_⟩ fun _ _ _ registered _ taken => registered.step taken
  · intro token cancel member
    cases member
  · rintro token cancel ⟨_, _, shape, _⟩
    exact absurd shape (by simp)

theorem not_admits (dead : ∀ expiry, r.tokens.lookup token = some expiry → now > expiry) :
    ¬ r.admits token now = true := by
  intro admitted
  obtain ⟨_, live⟩ := Bool.and_eq_true_iff.mp admitted
  obtain ⟨expiry, found, unexpired⟩ := (Option.any_eq_true ..).mp live
  have past := dead expiry found
  simp [past] at unexpired

/-- In every reachable state: what is registered is on a token that is there; a registration on an
absent or expired token is refused; a section that removes a token hands back everything open on it,
and none loses a registration otherwise; and there are at most 128 tokens. -/
theorem session_registry_consistent {server : SessionServer}
    (reached : Reaches SessionServer.step (fun _ _ => True) {} server) :
    (∀ token, server.registry.registered token ≠ [] → server.registry.Has token) ∧
    (∀ token id now, (∀ expiry, server.registry.tokens.lookup token = some expiry → now > expiry) →
      server.registry.registerWSCancel token id now = none ∧
        server.registry.registerStreamCancel token id now = none) ∧
    (∀ action next, server.step action = some next →
      (∀ token, server.registry.Has token → ¬ next.registry.Has token →
        ∃ cancels, next.history = server.history ++ [.handedBack cancels] ∧
          ∀ cancel, OpenOn server.history token cancel → cancel ∈ cancels) ∧
      ∀ token cancel, OpenOn server.history token cancel →
        (next.registry.Has token ∧ cancel ∈ next.registry.registered token) ∨
          (∃ cancels, next.history = server.history ++ [.handedBack cancels] ∧ cancel ∈ cancels) ∨
          action = .unregister token cancel) ∧
    server.registry.tokens.size ≤ 128 := by
  have registered := registered_of_reaches reached
  refine ⟨fun token some_ => ?_, fun token id now dead => ?_, fun action next taken => ?_,
    registered.size⟩
  · obtain ⟨cancel, member⟩ := exists_mem_of_ne_nil _ some_
    exact registered.current token cancel member
  · exact ⟨if_neg (not_admits dead), if_neg (not_admits dead)⟩
  have after := registered.step taken
  constructor
  · intro token before gone
    cases step_turn taken with
    | idle same => exact absurd (same ▸ before) gone
    | swept cancels sweeps written =>
      refine ⟨cancels, written, fun cancel opened => ?_⟩
      exact (sweeps.kept token cancel (registered.counted token cancel opened)).resolve_left
        fun kept => gone (after.current token cancel kept)
    | entered _ _ enters =>
      rw [Registry.Has, enters.tokens] at gone
      exact absurd before gone
    | left _ _ result =>
      rw [Registry.Has, result, tokens_unregister] at gone
      exact absurd before gone
  · intro token cancel opened
    have member := registered.counted token cancel opened
    cases step_turn taken with
    | idle same => exact .inl (same ▸ ⟨registered.current token cancel member, member⟩)
    | swept cancels sweeps written =>
      rcases sweeps.kept token cancel member with kept | handed
      · exact .inl ⟨after.current token cancel kept, kept⟩
      · exact .inr (.inl ⟨cancels, written, handed⟩)
    | entered _ _ enters =>
      have kept := (enters.members token cancel).mpr (.inl member)
      exact .inl ⟨after.current token cancel kept, kept⟩
    | left other taken_ result =>
      by_cases same : token = other ∧ cancel = taken_
      · obtain ⟨rfl, rfl⟩ := same
        exact .inr (.inr rfl)
      · have kept := result ▸ mem_unregister.mpr ⟨member, same⟩
        exact .inl ⟨after.current token cancel kept, kept⟩

theorem session_registry_consistent_rotation :
    ∃ (server next : SessionServer) (cancels : List Cancel),
      server.registry.Has (lit "t") ∧ ¬ next.registry.Has (lit "t") ∧
      server.step .changePassword = some next ∧
      next.history = server.history ++ [.handedBack cancels] ∧ .socket 0 ∈ cancels := by
  have ran : (run (guarded SessionServer.step fun _ _ => True) {}
      [.issueToken 0 (lit "t") 0 100, .registerWSCancel (lit "t") 5,
        .registerStreamCancel (lit "t") 6, .unregister (lit "t") (.stream 0)]).map (fun server =>
      (decide (server.registry.Has (lit "t")) &&
          (server.step .changePassword).any fun next => !decide (next.registry.Has (lit "t")),
        server.history)) =
      some (true, [.handedBack [], .registered (lit "t") (.socket 0),
        .registered (lit "t") (.stream 0), .unregistered (lit "t") (.stream 0)]) := by
    decide +kernel
  obtain ⟨server, ran, facts⟩ := map_eq_some_iff.mp ran
  obtain ⟨checked, history⟩ := Prod.ext_iff.mp facts
  obtain ⟨has, gone⟩ := Bool.and_eq_true_iff.mp checked
  obtain ⟨next, taken, gone⟩ := (Option.any_eq_true ..).mp gone
  have has := of_decide_eq_true has
  have gone : ¬ next.registry.Has (lit "t") := by simpa using gone
  obtain ⟨_, _, deletion, _⟩ := session_registry_consistent (reaches_run .refl ran)
  obtain ⟨cancels, written, all⟩ := (deletion _ next taken).1 (lit "t") has gone
  have opened : OpenOn server.history (lit "t") (.socket 0) :=
    ⟨[.handedBack []], [.registered (lit "t") (.stream 0), .unregistered (lit "t") (.stream 0)],
      history, by decide, by simp⟩
  exact ⟨server, next, cancels, has, gone, taken, written, all _ opened⟩

end Ircthing.Api
