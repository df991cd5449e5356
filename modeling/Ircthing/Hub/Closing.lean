/-
This file proves that a channel which was closed stays closed for the grace period.
-/

import Mathlib.Logic.Function.Basic
import Ircthing.Hub.Redaction
import Ircthing.Library.Machine

namespace Ircthing.Hub.Closing

open Library Effect Irc List Option Store Tombstones Machine Dict
open Store (Fault StoreError)

variable {job : Job} {thread : Nat} {now time : Int} {target network : Bytes}
  {visit : Iteration Bytes} {env : Env} {conn : Conn} {faults : Faults} {fault : Fault}
  {replay : Bool} {ev : Event}

/-! ### Threads -/

/-- Where a thread stands: between jobs, in the steps of a job with other jobs to follow, or in the
steps of a close. -/
inductive Progress
  | idle
  | queued (jobs : List Job)
  | ready (job : Job) (later : List Job)
  | reopened (job : Job) (later : List Job)
  | adopted (job : Job) (later : List Job)
  | publishing (job : Job) (stored : Message) (later : List Job)
  | resolving (network buffer : Bytes) (fold : Bytes → Bytes)
  | deleting (network canonical : Bytes) (fold : Bytes → Bytes) (id : Nat)
  | closed (network canonical : Bytes) (fold : Bytes → Bytes)

namespace Progress

def current : Progress → Option Job
  | ready job _ => some job
  | reopened job _ => some job
  | adopted job _ => some job
  | publishing job _ _ => some job
  | _ => none

def jobs : Progress → List Job
  | queued jobs => jobs
  | ready job later => job :: later
  | reopened job later => job :: later
  | adopted job later => job :: later
  | publishing job _ later => job :: later
  | _ => []

/-- The thread holds `bufferMutationMu`: a live job and a close do. -/
def holds : Progress → Bool
  | ready job _ => !job.replay
  | reopened job _ => !job.replay
  | adopted job _ => !job.replay
  | publishing job _ _ => !job.replay
  | resolving _ _ _ => true
  | deleting _ _ _ _ => true
  | closed _ _ _ => true
  | _ => false

def tombstone : Progress → Option Bytes
  | closed network canonical fold => some (key network (fold canonical))
  | _ => none

end Progress

/-- The hub, the holder of `bufferMutationMu`, and where each thread stands. -/
structure State where
  hub : HubState
  mutex : Option Nat := none
  progress : Nat → Progress := fun _ => .idle

/-- What the threads do: begin with a line whose lookups gave a target, with a QUIT or NICK, a local
echo or a close, or take the next step. Another operation may leave any store in between. -/
inductive Action
  | persist (thread : Nat) (env : Env) (now : Int) (conn : Conn) (ev : Event) (replay : Bool)
      (target : Bytes)
  | membership (thread : Nat) (env : Env) (now : Int) (conn : Conn) (ev : Event) (replay : Bool)
      (targets : List Bytes)
  | own (thread : Nat) (env : Env) (now : Int) (conn : Conn) (network target text : Bytes)
  | close (thread : Nat) (network buffer : Bytes) (fold : Bytes → Bytes)
  | advance (thread : Nat) (faults : Faults) (visit : Iteration Bytes) (now : Int)
  | elsewhere (store : Store)

/-! ### Steps -/

def State.move (state : State) (thread : Nat) (progress : Progress) : State :=
  { state with progress := Function.update state.progress thread progress }

variable {state : State} {progress : Progress}

theorem State.forall_move {P : Nat → Progress → Prop} (moved : P thread progress)
    (others : ∀ other, other ≠ thread → P other (state.progress other)) (any : Nat) :
    P any ((state.move thread progress).progress any) :=
  (Function.forall_update_iff state.progress P).mpr ⟨moved, others⟩ any

def Action.jobs : Action → List Job
  | .persist _ env now conn ev replay target => [eventJob env now conn ev replay target]
  | .membership _ env now conn ev replay targets =>
    targets.map (membershipJob env now conn ev replay)
  | .own _ env now conn network target text => [ownJob env now conn network target text]
  | _ => []

def State.begin (state : State) (thread : Nat) (jobs : List Job) : Option State :=
  match state.progress thread with
  | .idle => some (state.move thread (.queued jobs))
  | _ => none

/-- The sections of `DeleteBufferFolded` that may set the tombstone. The messages in between are
deleted elsewhere. -/
def closeSection (fault : Fault) (store : Store) : Progress → Option (Store × Progress)
  | .resolving network buffer fold =>
    match exec (resolveBufferLocked fault network buffer (some fold)) store with
    | (.ok (canonical, none), next) => some (next, .closed network canonical fold)
    | (.ok (canonical, some id), next) => some (next, .deleting network canonical fold id)
    | (.error _, next) => some (next, .idle)
  | .deleting network canonical fold id =>
    match exec (deleteBufferRow fault (network, canonical) id) store with
    | (.ok _, next) => some (next, .closed network canonical fold)
    | (.error _, next) => some (next, .idle)
  | _ => none

/-- The tombstones after a section: `markClosed` when it ended in a close. -/
def marked (visit : Iteration Bytes) (now : Int) (tombstones : Tombstones) :
    Progress → Tombstones
  | .closed network canonical fold =>
    tombstones.markClosed visit network (fold canonical) (unixMilli now)
  | _ => tombstones

def released (job : Job) (mutex : Option Nat) : Option Nat := if job.replay then mutex else none

def advance (state : State) (thread : Nat) (faults : Faults) (visit : Iteration Bytes)
    (now : Int) : Option State :=
  match state.progress thread with
  | .idle => none
  | .queued [] => some (state.move thread .idle)
  | .queued (job :: later) =>
    if job.replay then some (state.move thread (.ready job later))
    else if state.mutex.isNone then
      some ({ state with mutex := some thread }.move thread (.ready job later))
    else none
  | .ready job later =>
    some ({ state with hub := job.reopen state.hub }.move thread (.reopened job later))
  | .reopened job later =>
    some ({ state with hub := final (job.adopt faults.adopt) state.hub }.move thread
      (.adopted job later))
  | .adopted job later =>
    match exec (job.append faults.append faults.veto now) state.hub with
    | (.ok (some stored), next) =>
      some ({ state with hub := next }.move thread (.publishing job stored later))
    | (_, next) =>
      some ({ state with hub := next, mutex := released job state.mutex }.move thread
        (.queued later))
  | .publishing job stored later =>
    some ({ state with
      hub := job.publish stored state.hub
      mutex := released job state.mutex }.move thread (.queued later))
  | .closed network canonical _ =>
    some ({ state with
      hub := broadcast (.bufferClosed network canonical true) state.hub
      mutex := none }.move thread .idle)
  | progress =>
    (closeSection faults.append state.hub.store progress).map fun (store, next) =>
      { state with
        hub :=
          { state.hub with
            store := store
            tombstones := marked visit now state.hub.tombstones next }
        mutex := if next.holds then state.mutex else none }.move thread next

def step (state : State) (action : Action) : Option State :=
  match action with
  | .persist thread _ _ _ _ _ _ => state.begin thread action.jobs
  | .membership thread _ _ _ _ _ _ => state.begin thread action.jobs
  | .own thread _ _ _ _ _ _ => state.begin thread action.jobs
  | .close thread network buffer fold =>
    match state.progress thread, state.mutex with
    | .idle, none =>
      some ({ state with mutex := some thread }.move thread (.resolving network buffer fold))
    | _, _ => none
  | .advance thread faults visit now => advance state thread faults visit now
  | .elsewhere store => some { state with hub := { state.hub with store := store } }

/-! ### What a step does -/

inductive Turn (thread : Nat) (faults : Faults) (visit : Iteration Bytes) (now : Int) :
    Progress × HubState × Option Nat → Progress × HubState × Option Nat → Prop
  | finishes (hub mutex) : Turn thread faults visit now (.queued [], hub, mutex) (.idle, hub, mutex)
  | replays {job : Job} (later hub mutex) (replay : job.replay = true) :
    Turn thread faults visit now (.queued (job :: later), hub, mutex) (.ready job later, hub, mutex)
  | locks {job : Job} (later hub) (live : job.replay = false) :
    Turn thread faults visit now (.queued (job :: later), hub, none)
      (.ready job later, hub, some thread)
  | reopens (job later hub mutex) :
    Turn thread faults visit now (.ready job later, hub, mutex)
      (.reopened job later, job.reopen hub, mutex)
  | adopts (job later hub mutex) :
    Turn thread faults visit now (.reopened job later, hub, mutex)
      (.adopted job later, final (job.adopt faults.adopt) hub, mutex)
  | stores (job : Job) (later) {hub} (mutex) {stored next}
    (ended : exec (job.append faults.append faults.veto now) hub =
      (.ok (some stored), next)) :
    Turn thread faults visit now (.adopted job later, hub, mutex)
      (.publishing job stored later, next, mutex)
  | drops (job : Job) (later hub mutex) :
    Turn thread faults visit now (.adopted job later, hub, mutex)
      (.queued later, final (job.append faults.append faults.veto now) hub, released job mutex)
  | publishes (job stored later hub mutex) :
    Turn thread faults visit now (.publishing job stored later, hub, mutex)
      (.queued later, job.publish stored hub, released job mutex)
  | announces (network canonical fold hub mutex) :
    Turn thread faults visit now (.closed network canonical fold, hub, mutex)
      (.idle, broadcast (.bufferClosed network canonical true) hub, none)
  | closes {progress hub} (mutex) {store next}
    (section_ : closeSection faults.append hub.store progress = some (store, next)) :
    Turn thread faults visit now (progress, hub, mutex)
      (next, { hub with store := store, tombstones := marked visit now hub.tombstones next },
        if next.holds then mutex else none)

theorem closeSection_shape {store reached : Store} {next : Progress}
    (found : closeSection fault store progress = some (reached, next)) :
    progress.holds = true ∧ progress.jobs = [] ∧ next.jobs = [] := by
  cases progress with
  | resolving network buffer fold | deleting network canonical fold id =>
    rw [closeSection] at found
    split at found <;> (cases found; exact ⟨rfl, rfl, rfl⟩)
  | _ => cases found

variable {next : State}

theorem advance_turn (taken : advance state thread faults visit now = some next) :
    ∃ progress hub mutex, next = { state with hub := hub, mutex := mutex }.move thread progress ∧
      Turn thread faults visit now (state.progress thread, state.hub, state.mutex)
        (progress, hub, mutex) := by
  unfold advance at taken
  split at taken <;> rename_i place
  · cases taken
  · cases taken
    exact ⟨_, _, _, rfl, place ▸ .finishes _ _⟩
  · split at taken
    next replay =>
      cases taken
      exact ⟨_, _, _, rfl, place ▸ .replays _ _ _ replay⟩
    rename_i live
    obtain ⟨unlocked, same⟩ := ite_none_right_eq_some.mp taken
    cases same
    refine ⟨_, _, _, rfl, ?_⟩
    rw [place, isNone_iff_eq_none.mp unlocked]
    exact .locks _ _ (Bool.not_eq_true _ ▸ live)
  · cases taken
    exact ⟨_, _, _, rfl, place ▸ .reopens _ _ _ _⟩
  · cases taken
    exact ⟨_, _, _, rfl, place ▸ .adopts _ _ _ _⟩
  · split at taken
    next ended =>
      cases taken
      exact ⟨_, _, _, rfl, place ▸ .stores _ _ _ ended⟩
    next outcome reached _ ended =>
      cases taken
      refine ⟨_, _, _, rfl, ?_⟩
      rw [place, show reached = final _ state.hub from (congrArg Prod.snd ended).symm]
      exact .drops _ _ _ _
  · cases taken
    exact ⟨_, _, _, rfl, place ▸ .publishes _ _ _ _ _⟩
  · cases taken
    exact ⟨_, _, _, rfl, place ▸ .announces _ _ _ _ _⟩
  · obtain ⟨⟨_, reached⟩, found, rfl⟩ := map_eq_some_iff.mp taken
    refine ⟨_, _, _, rfl, ?_⟩
    exact .closes _ found

theorem step_cases {action : Action} (taken : step state action = some next) :
    (∃ thread, state.progress thread = .idle ∧ next = state.move thread (.queued action.jobs)) ∨
    (∃ thread network buffer fold, state.progress thread = .idle ∧ state.mutex = none ∧
      next = { state with mutex := some thread }.move thread (.resolving network buffer fold)) ∨
    (∃ thread faults visit now progress hub mutex, action = .advance thread faults visit now ∧
      next = { state with hub := hub, mutex := mutex }.move thread progress ∧
      Turn thread faults visit now (state.progress thread, state.hub, state.mutex)
        (progress, hub, mutex)) ∨
    ∃ store, next = { state with hub := { state.hub with store := store } } := by
  have begins : ∀ thread, state.begin thread action.jobs = some next →
      ∃ thread, state.progress thread = .idle ∧ next = state.move thread (.queued action.jobs) := by
    intro thread begun
    unfold State.begin at begun
    split at begun
    next idle =>
      cases begun
      exact ⟨thread, idle, rfl⟩
    · cases begun
  unfold step at taken
  split at taken
  · exact .inl (begins _ taken)
  · exact .inl (begins _ taken)
  · exact .inl (begins _ taken)
  · split at taken
    next idle unlocked =>
      cases taken
      exact .inr (.inl ⟨_, _, _, _, idle, unlocked, rfl⟩)
    · cases taken
  · obtain ⟨progress, hub, mutex, same, turn⟩ := advance_turn taken
    exact .inr (.inr (.inl ⟨_, _, _, _, progress, hub, mutex, rfl, same, turn⟩))
  · cases taken
    exact .inr (.inr (.inr ⟨_, rfl⟩))

/-! ### The mutex -/

def Exclusive (state : State) : Prop :=
  ∀ thread, (state.progress thread).holds = true → state.mutex = some thread

theorem Turn.mutex {before after : Progress × HubState × Option Nat}
    (turn : Turn thread faults visit now before after)
    (own : before.1.holds = true → before.2.2 = some thread) :
    (after.1.holds = true → after.2.2 = some thread) ∧
      ∀ other ≠ thread, before.2.2 = some other → after.2.2 = some other := by
  -- a turn that gives the mutex up is one of its holder
  have gives : ∀ mutex : Option Nat, mutex = some thread → ∀ other ≠ thread, mutex = some other →
      (none : Option Nat) = some other := by
    rintro mutex rfl other different same
    exact absurd (some.inj same).symm different
  have releases : ∀ (job : Job) (mutex : Option Nat), ((!job.replay) = true → mutex = some thread) →
      ∀ other ≠ thread, mutex = some other → released job mutex = some other := by
    intro job mutex held other different same
    unfold released
    split
    · exact same
    next live =>
      exact gives mutex (held (by simpa using live)) other different same
  cases turn with
  | finishes => exact ⟨nofun, fun _ _ => id⟩
  | replays later hub mutex replay =>
    refine ⟨fun holds => ?_, fun _ _ => id⟩
    dsimp only [Progress.holds] at holds
    rw [replay] at holds
    cases holds
  | locks => exact ⟨fun _ => rfl, nofun⟩
  | reopens | adopts | stores => exact ⟨own, fun _ _ => id⟩
  | drops job later hub mutex | publishes job stored later hub mutex =>
    exact ⟨nofun, releases job mutex own⟩
  | announces network canonical fold hub mutex =>
    exact ⟨nofun, gives mutex (own rfl)⟩
  | closes mutex section_ =>
    have holds := (closeSection_shape section_).1
    split
    · exact ⟨fun _ => own holds, fun _ _ => id⟩
    next over_ =>
      exact ⟨fun again => absurd again over_, gives mutex (own holds)⟩

theorem step_exclusive {action : Action} (exclusive : Exclusive state)
    (taken : step state action = some next) : Exclusive next := by
  rcases step_cases taken with ⟨thread, -, rfl⟩ |
    ⟨thread, network, buffer, fold, -, unlocked, rfl⟩ |
    ⟨thread, faults, visit, now, progress, hub, mutex, -, rfl, turn⟩ | ⟨store, rfl⟩
  · exact State.forall_move
      (P := fun any progress => progress.holds = true → state.mutex = some any)
      nofun fun other _ => exclusive other
  · refine State.forall_move
      (P := fun any progress => progress.holds = true → some thread = some any)
      (fun _ => rfl) fun other _ holds => ?_
    rw [exclusive other holds] at unlocked
    cases unlocked
  · obtain ⟨goes, others⟩ := turn.mutex (exclusive thread)
    exact State.forall_move (P := fun any progress => progress.holds = true → mutex = some any)
      goes fun other different holds => others other different (exclusive other holds)
  · exact exclusive

/-! ### The condition -/

/-- The store would file the job under the channel: the target, cut to the bound of the store, folds
like it. -/
def Concerns (job : Job) (network folded : Bytes) : Prop :=
  job.network = network ∧ job.fold (clampUTF8 job.target maxStoredFieldBytes) = folded

/-- The job leaves the tombstone of a channel in force: if filed under the channel, its target folds
like the channel before it is cut as well, and its guard asks the tombstones; and it does not clear
it, as our own JOIN does. -/
def Respects (job : Job) (network folded : Bytes) : Prop :=
  (Concerns job network folded →
    job.fold job.target = folded ∧ (job.guard = .straggler ∨ job.guard = .partEcho)) ∧
  (job.reopens = true → key job.network (job.fold job.target) ≠ key network folded)

instance (job : Job) (network folded : Bytes) : Decidable (Concerns job network folded) :=
  inferInstanceAs (Decidable (_ ∧ _))

instance (job : Job) (network folded : Bytes) : Decidable (Respects job network folded) :=
  inferInstanceAs (Decidable ((_ → _ ∧ (_ ∨ _)) ∧ (_ → _ ≠ _)))

def marks (fault : Fault) (store : Store) (progress : Progress) : Option Bytes :=
  (closeSection fault store progress).bind fun next => next.2.tombstone

/-- A turn comes within the grace period of a close, and one that closes another buffer comes no
earlier and keeps the younger tombstones within the bounds. -/
def Timely (since : Int) (state : State) : Action → Prop
  | .advance thread faults _ now =>
    unixMilli now ≤ since + closeGraceMs ∧
      ∀ key ∈ marks faults.append state.hub.store (state.progress thread),
        since ≤ unixMilli now ∧ (state.hub.tombstones.put key (unixMilli now)).Fits since
  | _ => True

instance (since : Int) (state : State) : DecidablePred (Timely since state)
  | .advance thread faults _ _ => inferInstanceAs (Decidable (_ ≤ _ ∧ ∀ key ∈
      marks faults.append state.hub.store (state.progress thread),
        _ ≤ _ ∧ (state.hub.tombstones.put key _).Fits since))
  | .persist _ _ _ _ _ _ _ => isTrue trivial
  | .membership _ _ _ _ _ _ _ => isTrue trivial
  | .own _ _ _ _ _ _ _ => isTrue trivial
  | .close _ _ _ _ => isTrue trivial
  | .elsewhere _ => isTrue trivial

variable (network folded)

def Meets (since : Int) (state : State) (action : Action) : Prop :=
  (∀ job ∈ action.jobs, Respects job network folded) ∧ Timely since state action

instance (network folded : Bytes) (since : Int) (state : State) (action : Action) :
    Decidable (Meets network folded since state action) :=
  inferInstanceAs (Decidable (_ ∧ _))

/-! ### While the tombstone stands -/

def Stands (since : Int) (hub : HubState) : Prop :=
  ∃ time, hub.tombstones.closed.lookup (key network folded) = some time ∧ since ≤ time

/-- A thread respects the tombstone of the channel: all its jobs do, and it is not about to announce
a live message in the channel. -/
structure Heeds (progress : Progress) : Prop where
  respects : ∀ job ∈ progress.jobs, Respects job network folded
  silent : ∀ job stored later, progress = .publishing job stored later →
    Concerns job network folded → job.replay = true

structure Sealed (since : Int) (state : State) : Prop where
  stands : Stands network folded since state.hub
  heeds : ∀ thread, Heeds network folded (state.progress thread)

structure Spared (hub next : HubState) : Prop where
  buffers : next.store.db.buffers = hub.store.db.buffers
  messages : next.store.db.messages.map (·.id) = hub.store.db.messages.map (·.id)
  frames : next.frames = hub.frames

theorem Spared.refl (hub : HubState) : Spared hub hub := ⟨rfl, rfl, rfl⟩

variable {network folded}

theorem Spared.of_turn {hub : HubState} {next : Store}
    (turn : BufferTurn network target false hub.store next) :
    Spared hub { hub with store := next } := by
  refine ⟨?_, ?_, rfl⟩ <;> dsimp only <;> rw [turn.reads.1]

theorem append_vetoed {folded : Bytes} {since : Int} {hub : HubState}
    (stands : Stands network folded since hub) (grace : unixMilli now ≤ since + closeGraceMs)
    (concerns : Concerns job network folded) (respects : Respects job network folded)
    (fault veto : Fault) :
    wp (job.append fault veto now)
      (fun announced next => announced = none ∧ Spared hub next) (fun _ _ => False) hub := by
  obtain ⟨_, held, _⟩ := stands
  obtain ⟨asks, guarded⟩ := respects.1 concerns
  have closed : hub.tombstones.recentlyClosed job.network (job.fold job.target)
      (unixMilli now) = true := by
    rw [concerns.1, asks, recentlyClosed, held, any_some, Bool.not_eq_true',
      decide_eq_false_iff_not]
    omega
  have vetoes : ∃ test, job.guard.test true = some test ∧ ∀ present, test present = true := by
    rcases guarded with guard | guard
    · exact ⟨_, by rw [guard]; rfl, fun _ => rfl⟩
    · exact ⟨_, by rw [guard]; rfl, fun present => Bool.or_true _⟩
  obtain ⟨test, tests, always⟩ := vetoes
  unfold Job.append
  rw [wp_bind, wp_get]
  rw [closed, wp_bind, wp_recover]
  unfold onStore
  rw [wp_zoom]
  unfold Store.append
  split
  · exact ⟨rfl, Spared.refl hub⟩
  refine wp_seq resolveTarget_named ?_ ?_
  rotate_left
  · rintro _ _ ⟨rfl, -⟩
    exact ⟨rfl, Spared.refl hub⟩
  rintro target _ ⟨rfl, -⟩
  rw [tests, Store.guarded, wp_bind, appendVetoed, wp_bind]
  -- the guard looks the buffer up and may cache its id
  refine wp_mono bufferID_turn ?_ ?_
  · intro found next looked
    rw [wp_pure, always]
    exact ⟨rfl, Spared.of_turn looked.1⟩
  · intro reason next failed
    exact ⟨rfl, Spared.of_turn failed.1⟩

theorem append_tombstones (job : Job) (fault veto : Fault) (now : Int) (hub : HubState) :
    (final (job.append fault veto now) hub).tombstones = hub.tombstones := by
  have kept : wp (job.append fault veto now) (fun _ next => next.tombstones = hub.tombstones)
      (fun _ next => next.tombstones = hub.tombstones) hub := by
    unfold Job.append onStore
    rw [wp_bind, wp_get]
    rw [wp_bind, wp_recover, wp_zoom, wp_iff]
    exact ⟨fun _ _ _ => rfl, fun _ _ _ => rfl⟩
  exact wp_final kept

theorem adopt_tombstones (job : Job) (fault : Fault) (hub : HubState) :
    (final (job.adopt fault) hub).tombstones = hub.tombstones := by
  have kept : wp (job.adopt fault) (fun _ next => next.tombstones = hub.tombstones)
      (fun _ next => next.tombstones = hub.tombstones) hub := by
    unfold Job.adopt onStore
    split
    · rfl
    · rw [wp_bind, wp_recover, wp_zoom, wp_iff]
      exact ⟨fun _ _ _ => rfl, fun _ _ _ => rfl⟩
  exact wp_final kept

theorem adopt_spares {hub : HubState} : Spared hub (final (job.adopt fault) hub) := by
  refine wp_final (?_ : wp _ (fun _ => Spared hub) (fun _ => Spared hub) hub)
  unfold Job.adopt onStore
  split
  · exact Spared.refl hub
  rename_i own _
  rw [wp_bind, wp_recover, wp_zoom]
  refine wp_mono adoptOwnMsgID_turn ?_ fun _ next failed => Spared.of_turn failed.1
  rintro done next (⟨-, rfl⟩ | turn)
  · exact Spared.refl hub
  · exact ⟨turn.rows.2, turn.ids fun _ => rfl, rfl⟩

/-! ### Turns -/

variable {network folded : Bytes} {since : Int} {thread : Nat} {faults : Faults}
variable {visit : Iteration Bytes} {now : Int} {place progress : Progress}
variable {hub next : HubState} {mutex after : Option Nat}

theorem Stands.marked (stands : Stands network folded since hub)
    (grace : unixMilli now ≤ since + closeGraceMs)
    (bounds : ∀ key ∈ progress.tombstone, since ≤ unixMilli now ∧
      (hub.tombstones.put key (unixMilli now)).Fits since) (store : Store) :
    Stands network folded since
      { hub with store := store, tombstones := marked visit now hub.tombstones progress } := by
  cases progress with
  | closed other canonical fold =>
    obtain ⟨time, held, young⟩ := stands
    obtain ⟨late, fits⟩ := bounds _ rfl
    by_cases same : key network folded = key other (fold canonical)
    · refine ⟨unixMilli now, lookup_markClosed visit fits ?_ late ?_, late⟩
      · rw [lookup_put, if_pos same]
      · rw [sub_self]
        decide
    · refine ⟨time, lookup_markClosed visit fits ?_ young (by omega), young⟩
      rw [lookup_put, if_neg same]
      exact held
  | _ => exact stands

section

variable (turn : Turn thread faults visit now (place, hub, mutex) (progress, next, after))
include turn

theorem Turn.stands (stands : Stands network folded since hub) (heeds : Heeds network folded place)
    (grace : unixMilli now ≤ since + closeGraceMs)
    (bounds : ∀ key ∈ marks faults.append hub.store place, since ≤ unixMilli now ∧
      (hub.tombstones.put key (unixMilli now)).Fits since) :
    Stands network folded since next := by
  cases turn with
  | finishes | replays | locks => exact stands
  | reopens job =>
    obtain ⟨time, held, young⟩ := stands
    refine ⟨time, ?_, young⟩
    unfold Job.reopen
    split
    next clears =>
      have other := (heeds.respects job mem_cons_self).2 clears
      show (delete _ _).closed.lookup _ = _
      rw [lookup_delete, if_neg other.symm]
      exact held
    · exact held
  | adopts =>
    unfold Stands
    rw [adopt_tombstones]
    exact stands
  | stores job _ _ ended =>
    have same := append_tombstones job faults.append faults.veto now hub
    rw [final, ended] at same
    unfold Stands
    rw [same]
    exact stands
  | drops =>
    unfold Stands
    rw [append_tombstones]
    exact stands
  | publishes =>
    unfold Job.publish
    split <;> exact stands
  | announces => exact stands
  | closes _ section_ =>
    refine stands.marked grace ?_ _
    unfold marks at bounds
    rw [section_] at bounds
    exact bounds

theorem Turn.jobs (member : job ∈ progress.jobs) : job ∈ place.jobs := by
  cases turn with
  | finishes | replays | locks | reopens | adopts | stores => exact member
  | drops | publishes => exact .tail _ member
  | announces => cases member
  | closes _ section_ =>
    obtain ⟨-, -, empty⟩ := closeSection_shape section_
    rw [empty] at member
    cases member

theorem Turn.heeds (stands : Stands network folded since hub) (heeds : Heeds network folded place)
    (grace : unixMilli now ≤ since + closeGraceMs) : Heeds network folded progress := by
  refine ⟨fun job member => heeds.respects job (turn.jobs member), ?_⟩
  rintro job stored rest rfl concerns
  cases turn with
  | stores job _ _ ended =>
    have vetoed := append_vetoed stands grace concerns (heeds.respects job mem_cons_self)
      faults.append faults.veto
    cases (((wp_iff _ _ _ _).mp vetoed).1 _ _ ended).1
  | closes _ section_ =>
    obtain ⟨-, -, empty⟩ := closeSection_shape section_
    cases empty

theorem Turn.spares (stands : Stands network folded since hub) (heeds : Heeds network folded place)
    (grace : unixMilli now ≤ since + closeGraceMs) (current : place.current = some job)
    (concerns : Concerns job network folded) : Spared hub next := by
  cases turn with
  | finishes | replays | locks | announces => cases current
  | reopens =>
    unfold Job.reopen
    split <;> exact ⟨rfl, rfl, rfl⟩
  | adopts => exact adopt_spares
  | stores job _ _ ended =>
    cases current
    have vetoed := append_vetoed stands grace concerns (heeds.respects job mem_cons_self)
      faults.append faults.veto
    exact (((wp_iff _ _ _ _).mp vetoed).1 _ _ ended).2
  | drops job =>
    cases current
    have vetoed := append_vetoed stands grace concerns (heeds.respects job mem_cons_self)
      faults.append faults.veto
    exact wp_final (wp_mono vetoed (fun _ _ spared => spared.2) fun _ _ => False.elim)
  | publishes job stored later =>
    cases current
    rw [Job.publish, if_pos (heeds.silent job stored later rfl concerns)]
    exact Spared.refl hub
  | closes _ section_ =>
    obtain ⟨-, empty, -⟩ := closeSection_shape section_
    cases place with
    | ready | reopened | adopted | publishing => cases empty
    | _ => cases current

end

/-! ### Runs -/

variable {state later start closed reached : State} {action : Action}

theorem Sealed.step (sealed : Sealed network folded since state)
    (meets : Meets network folded since state action) (taken : step state action = some later) :
    Sealed network folded since later := by
  obtain ⟨stands, heeds⟩ := sealed
  rcases step_cases taken with ⟨thread, -, rfl⟩ | ⟨thread, other, _, _, -, -, rfl⟩ |
    ⟨thread, faults, visit, now, progress, hub, mutex, rfl, rfl, turn⟩ | ⟨store, rfl⟩
  · refine ⟨stands, State.forall_move (P := fun _ progress => Heeds network folded progress) ?_
      fun other _ => heeds other⟩
    exact ⟨meets.1, fun _ _ _ wrong => by cases wrong⟩
  · refine ⟨stands, State.forall_move (P := fun _ progress => Heeds network folded progress) ?_
      fun other _ => heeds other⟩
    exact ⟨fun _ wrong => (by cases wrong), fun _ _ _ wrong => by cases wrong⟩
  · obtain ⟨grace, bounds⟩ := meets.2
    exact ⟨turn.stands stands (heeds thread) grace bounds,
      State.forall_move (P := fun _ progress => Heeds network folded progress)
        (turn.heeds stands (heeds thread) grace) fun other _ => heeds other⟩
  · exact ⟨stands, heeds⟩

theorem jobs_of_begun {P : Job → Prop} (idle : ∀ thread, start.progress thread = .idle)
    (run : Machine.Reaches step (fun _ action => ∀ job ∈ action.jobs, P job) start state) :
    ∀ thread, ∀ job ∈ (state.progress thread).jobs, P job := by
  induction run with
  | refl =>
    intro thread job member
    rw [idle thread] at member
    cases member
  | tail _ _ begins taken under =>
    rcases step_cases taken with ⟨thread, -, rfl⟩ | ⟨thread, other, _, _, -, -, rfl⟩ |
      ⟨thread, faults, visit, now, progress, hub, mutex, rfl, rfl, turn⟩ | ⟨store, rfl⟩
    · exact State.forall_move (P := fun _ progress => ∀ job ∈ progress.jobs, P job) begins
        fun other _ => under other
    · exact State.forall_move (P := fun _ progress => ∀ job ∈ progress.jobs, P job)
        (fun _ wrong => by cases wrong) fun other _ => under other
    · exact State.forall_move (P := fun _ progress => ∀ job ∈ progress.jobs, P job)
        (fun job member => under thread job (turn.jobs member)) fun other _ => under other
    · exact under

theorem Exclusive.sealed (exclusive : Exclusive closed) {closer : Nat}
    (closes : (closed.progress closer).tombstone = some (key network folded))
    (installed : closed.hub.tombstones.closed.lookup (key network folded) = some since)
    (begun : ∀ thread, ∀ job ∈ (closed.progress thread).jobs, Respects job network folded) :
    Sealed network folded since closed := by
  refine ⟨⟨since, installed, le_rfl⟩, fun thread => ⟨begun thread, ?_⟩⟩
  intro job stored rest publishing _
  by_contra live
  have ours : (closed.progress closer).holds = true := by
    cases place : closed.progress closer with
    | closed other canonical fold => rfl
    | _ =>
      rw [place] at closes
      cases closes
  have theirs : (closed.progress thread).holds = true := by
    rw [publishing]
    simpa [Progress.holds] using live
  obtain rfl : closer = thread :=
    some.inj ((exclusive closer ours).symm.trans (exclusive thread theirs))
  rw [publishing] at closes
  cases closes

/-- From any state in which a close has set the tombstone of a channel, in every run whose actions
meet the condition, a line or an echo that would be filed under the channel creates no buffer,
stores nothing and announces nothing. -/
theorem closed_channel_stays_closed {closer : Nat} {job : Job}
    (idle : ∀ thread, start.progress thread = .idle)
    (before : Machine.Reaches step (fun _ _ => True) start closed)
    (closes : (closed.progress closer).tombstone = some (key network folded))
    (installed : closed.hub.tombstones.closed.lookup (key network folded) = some since)
    (begun : ∀ thread, ∀ job ∈ (closed.progress thread).jobs, Respects job network folded)
    (run : Machine.Reaches step (Meets network folded since) closed reached)
    (meets : Meets network folded since reached (.advance thread faults visit now))
    (taken : step reached (.advance thread faults visit now) = some later)
    (current : (reached.progress thread).current = some job)
    (concerns : Concerns job network folded) : Spared reached.hub later.hub := by
  have exclusive : Exclusive closed :=
    before.invariant (fun thread holds => by rw [idle thread] at holds; cases holds)
      fun _ _ _ exclusive _ taken => step_exclusive exclusive taken
  have sealed : Sealed network folded since reached :=
    run.invariant (exclusive.sealed closes installed begun)
      fun _ _ _ sealed met taken => sealed.step met taken
  obtain ⟨progress, hub, _, rfl, turn⟩ := advance_turn taken
  exact turn.spares sealed.stands (sealed.heeds thread) meets.2.1 current concerns

/-! ### Which lines meet the condition -/

theorem Concerns.uncut (concerns : Concerns job network folded)
    (short : job.target.length ≤ maxStoredFieldBytes) : job.fold job.target = folded := by
  have filed := concerns.2
  rwa [clampUTF8_of_le short] at filed

theorem eventJob_respects (short : target.length ≤ maxStoredFieldBytes)
    (guarded : replay = true ∨ conn.isChannel target = true)
    (other : (eventJob env time conn ev replay target).reopens = true →
      key ev.network (conn.fold target) ≠ key network folded) :
    Respects (eventJob env time conn ev replay target) network folded := by
  refine ⟨fun concerns => ⟨concerns.uncut short, ?_⟩, other⟩
  show graceGuard conn target _ replay = _ ∨ graceGuard conn target _ replay = _
  unfold graceGuard
  split
  · exact .inr rfl
  · rw [if_pos (by simpa using guarded)]
    exact .inl rfl

theorem membershipJob_respects (short : target.length ≤ maxStoredFieldBytes) :
    Respects (membershipJob env time conn ev replay target) network folded :=
  ⟨fun concerns => ⟨concerns.uncut short, .inl rfl⟩, nofun⟩

theorem ownJob_respects {name text : Bytes}
    (short : (ownJob env time conn network name text).target.length ≤ maxStoredFieldBytes)
    (channel : conn.isChannel (ownJob env time conn network name text).target = true) :
    Respects (ownJob env time conn network name text) network folded := by
  have guard : (ownJob env time conn network name text).guard = .straggler := if_pos channel
  have keeps : (ownJob env time conn network name text).reopens = false :=
    congrArg (!·) channel
  refine ⟨fun concerns => ⟨concerns.uncut short, .inl guard⟩, fun reopens => ?_⟩
  rw [keeps] at reopens
  cases reopens

/-! ### A channel that stays closed, and one that comes back -/

/-- A hub in which a target holds a message of `ann`, with every thread idle. -/
def annState (target : String) : State := { hub := annSaid target }

def closing (target : String) : List Action :=
  [.close 1 (lit "libera") (lit target) statusConn.fold, .advance 1 {} .plain 0,
    .advance 1 {} .plain 0]

/-- The second thread begins with a line of `ann`. -/
def straggler (target : String) : Action :=
  .persist 2 plainEnv 0 statusConn (annSends "PRIVMSG" target "hi" (lit "m2")) false (lit target)

def turnOf (thread : Nat) : Action := .advance thread {} .plain 0

theorem closed_channel_stays_closed_straggler :
    ∃ closed reached later : State,
      run (guarded step fun _ action => ∀ job ∈ action.jobs,
        Respects job (lit "libera") (lit "#go")) (annState "#go") (closing "#go") = some closed ∧
      closed.hub.store.db.buffers = [] ∧
      run (guarded step (Meets (lit "libera") (lit "#go") 0)) closed
        [straggler "#go", turnOf 1, turnOf 2, turnOf 2, turnOf 2] = some reached ∧
      step reached (turnOf 2) = some later ∧ Spared reached.hub later.hub := by
  have ran : (run (guarded step fun _ action => ∀ job ∈ action.jobs,
      Respects job (lit "libera") (lit "#go")) (annState "#go") (closing "#go")).map
      (fun closed => ((closed.progress 1).tombstone,
        closed.hub.tombstones.closed.lookup (key (lit "libera") (lit "#go")),
        closed.hub.store.db.buffers,
        (run (guarded step (Meets (lit "libera") (lit "#go") 0)) closed
          [straggler "#go", turnOf 1, turnOf 2, turnOf 2, turnOf 2]).any fun reached =>
            decide (Meets (lit "libera") (lit "#go") 0 reached (turnOf 2)) &&
              (step reached (turnOf 2)).isSome &&
              (reached.progress 2).current.any fun job =>
                decide (Concerns job (lit "libera") (lit "#go")))) =
      some (some (key (lit "libera") (lit "#go")), some 0, [], true) := by
    decide +kernel
  obtain ⟨closed, reaches, facts⟩ := map_eq_some_iff.mp ran
  obtain ⟨closes, facts⟩ := Prod.mk.inj facts
  obtain ⟨installed, facts⟩ := Prod.mk.inj facts
  obtain ⟨gone, facts⟩ := Prod.mk.inj facts
  obtain ⟨reached, goes, facts⟩ := any_eq_true _ _ |>.mp facts
  simp only [Bool.and_eq_true, decide_eq_true_eq] at facts
  obtain ⟨⟨meets, steps⟩, concerns⟩ := facts
  obtain ⟨later, taken⟩ := isSome_iff_exists.mp steps
  obtain ⟨job, current, filed⟩ := any_eq_true _ _ |>.mp concerns
  have run := reaches_run .refl reaches
  exact ⟨closed, reached, later, reaches, gone, goes, taken,
    closed_channel_stays_closed (fun _ => rfl) (run.mono fun _ _ _ => trivial) closes installed
      (jobs_of_begun (fun _ => rfl) run) (reaches_run .refl goes) meets taken current
      (of_decide_eq_true filed)⟩

def longName : String := "#" ++ String.ofList (replicate 511 'a')

/-- After a channel with a name of 512 bytes was closed, a message for a target one byte longer is
filed under it: the row is back, the message stored, and a third frame sent. The tombstone still
stands. -/
theorem cut_target_reopens_channel :
    (run step (annState longName) (closing longName)).map
      (fun closed => (closed.hub.store.db.buffers.length, closed.hub.frames.length)) =
      some (0, 1) ∧
    (run step (annState longName) (closing longName ++
        [turnOf 1, straggler (longName ++ "a"), turnOf 2, turnOf 2, turnOf 2, turnOf 2,
          turnOf 2])).map
      (fun state =>
        (state.hub.tombstones.recentlyClosed (lit "libera") (lit longName) 0,
          state.hub.store.db.buffers.map (·.name), state.hub.store.db.messages.length,
          state.hub.frames.length)) =
      some (true, [lit longName], 1, 3) := by
  decide +kernel

end Ircthing.Hub.Closing
