/-
This file proves that the byte counters of the outbound queues account for the frames.
-/

import Ircthing.Hub.OutboundQueue

namespace Ircthing.Hub.Outbound

open Library Option Function Dict OutboundFrame

variable {limits : QueueLimits} {updated : Session} {owner n : Nat}

/-! ### What a goroutine holds -/

namespace Caller

/-- The session whose queue is locked during `Release`. -/
def locks : Caller → Option Nat
  | .returns _ => none
  | .full s _ | .drain s _ => some s

/-- The session that is being disconnected during `Release`. -/
def disconnects : Caller → Option Nat
  | .returns _ | .full .. => none
  | .drain s _ => some s

end Caller

namespace Point

def bare : Point limits → Bool
  | .routine _ | .swapSession .. => true
  | _ => false

def reserves : Point limits → Option (Nat × Nat)
  | .loadHub s n _ | .swapHub s n _ _ _ | .giveBack s n _ => some (s, n)
  | _ => none

def carries : Point limits → Option (Nat × Nat)
  | .lockQueue s q _ | .checkClosed s q _ | .unlockRefused s q _ | .send s q _ => some (s, q)
  | _ => none

def releases : Point limits → Option Nat
  | .release q _ | .subtractSession q _ | .subtractHub q _ => some q
  | _ => none

/-- A frame whose `once` the goroutine runs, and whether the session's counter is lowered. -/
def subtracts : Point limits → Option (Nat × Bool)
  | .subtractSession q _ => some (q, false)
  | .subtractHub q _ => some (q, true)
  | _ => none

def locks : Point limits → Option Nat
  | .checkClosed s _ _ | .unlockRefused s _ _ | .send s _ _ | .unlockQueue s _ => some s
  | .setClosed s _ | .drain s _ | .unlockClosing s _ => some s
  | .release _ caller | .subtractSession _ caller | .subtractHub _ caller => caller.locks
  | _ => none

def disconnects : Point limits → Option Nat
  | .lockClosing s _ | .setClosed s _ | .drain s _ | .unlockClosing s _ | .finish s _ => some s
  | .release _ caller | .subtractSession _ caller | .subtractHub _ caller => caller.disconnects
  | _ => none

def admits : Point limits → Option Nat
  | .send s _ _ => some s
  | _ => none

def closes : Point limits → Option Nat
  | .drain s _ | .unlockClosing s _ | .finish s _ => some s
  | .release _ caller | .subtractSession _ caller | .subtractHub _ caller => caller.disconnects
  | _ => none

def empties : Point limits → Option Nat
  | .unlockClosing s _ | .finish s _ => some s
  | _ => none

end Point

/-! ### Accesses -/

inductive Turn (system : System limits) (t : Nat) :
    Point limits → System limits → Point limits → Prop
  | bare {point next : Point limits} (mu : Option Nat) (registered : List Nat)
      (before : point.bare = true) (later : next.bare = true) :
      Turn system t point { system with mu, registered } next
  | reserve (s n : Nat) (fits : Fits old n limits.sessionQueueBytes) (after : Bool → Routine)
      (session : Session) (found : system.sessions.lookup s = some session)
      (same : session.queuedBytes = old) :
      Turn system t (.swapSession s n old fits after)
        (system.setSession s { session with queuedBytes := old + n }) (.loadHub s n after)
  | reserving {point next : Point limits} (s n : Nat) (before : point.reserves = some (s, n))
      (later : next.reserves = some (s, n)) : Turn system t point system next
  | giveBack (s n : Nat) (after : Routine) (session : Session)
      (found : system.sessions.lookup s = some session) :
      Turn system t (.giveBack s n after)
        (system.setSession s { session with queuedBytes := session.queuedBytes - n })
        (.routine after)
  | frame (s n : Nat) (fits : Fits old n limits.hubQueueBytes) (after : Bool → Routine)
      (fresh : Nat) (same : system.queuedBytes = old)
      (unused : system.frames.lookup fresh = none) :
      Turn system t (.swapHub s n old fits after)
        ({ system with queuedBytes := old + n }.setFrame fresh { session := s, bytes := n })
        (.lockQueue s fresh (after true))
  | lockQueue (s q : Nat) (after : Routine) (session : Session)
      (found : system.sessions.lookup s = some session) (unlocked : session.queueMu = none) :
      Turn system t (.lockQueue s q after)
        (system.setSession s { session with queueMu := some t }) (.checkClosed s q after)
  | refuse (s q : Nat) (after : Routine) :
      Turn system t (.checkClosed s q after) system (.unlockRefused s q after)
  | findsOpen (s q : Nat) (after : Routine) (session : Session)
      (found : system.sessions.lookup s = some session) (opened : session.closed = false) :
      Turn system t (.checkClosed s q after) system (.send s q after)
  | unlockRefused (s q : Nat) (after : Routine) (session : Session)
      (found : system.sessions.lookup s = some session) :
      Turn system t (.unlockRefused s q after)
        (system.setSession s { session with queueMu := none }) (.release q (.returns after))
  | send (s q : Nat) (after : Routine) (session : Session)
      (found : system.sessions.lookup s = some session) :
      Turn system t (.send s q after)
        (system.setSession s { session with out := session.out ++ [q] }) (.unlockQueue s after)
  | full (s q : Nat) (after : Routine) :
      Turn system t (.send s q after) system (.release q (.full s after))
  | unlockQueue (s : Nat) (after : Routine) (session : Session)
      (found : system.sessions.lookup s = some session) :
      Turn system t (.unlockQueue s after)
        (system.setSession s { session with queueMu := none }) (.routine after)
  | again (q : Nat) (caller : Caller) (frame : OutboundFrame)
      (found : system.frames.lookup q = some frame) (over_ : frame.once = .finished) :
      Turn system t (.release q caller) system caller.resume
  | release (q : Nat) (caller : Caller) (frame : OutboundFrame)
      (found : system.frames.lookup q = some frame) (fresh : frame.once = .fresh) :
      Turn system t (.release q caller) (system.setFrame q { frame with once := .running t false })
        (.subtractSession q caller)
  | subtractSession (q : Nat) (caller : Caller) (frame : OutboundFrame) (session : Session)
      (found : system.frames.lookup q = some frame)
      (held : system.sessions.lookup frame.session = some session) :
      Turn system t (.subtractSession q caller)
        ((system.setSession frame.session
          { session with queuedBytes := session.queuedBytes - frame.bytes }).setFrame q
            { frame with once := .running t true }) (.subtractHub q caller)
  | subtractHub (q : Nat) (caller : Caller) (frame : OutboundFrame)
      (found : system.frames.lookup q = some frame) :
      Turn system t (.subtractHub q caller)
        ({ system with queuedBytes := system.queuedBytes - frame.bytes }.setFrame q
          { frame with once := .finished }) caller.resume
  | disconnect (s : Nat) (after : Routine) (session : Session)
      (found : system.sessions.lookup s = some session) (fresh : session.once = .fresh) :
      Turn system t (.routine (.disconnect s after))
        (system.setSession s { session with once := .running t }) (.lockClosing s after)
  | lockClosing (s : Nat) (after : Routine) (session : Session)
      (found : system.sessions.lookup s = some session) (unlocked : session.queueMu = none) :
      Turn system t (.lockClosing s after)
        (system.setSession s { session with queueMu := some t }) (.setClosed s after)
  | setClosed (s : Nat) (after : Routine) (session : Session)
      (found : system.sessions.lookup s = some session) :
      Turn system t (.setClosed s after)
        (system.setSession s { session with closed := true }) (.drain s after)
  | drain (s q : Nat) (rest : List Nat) (after : Routine) (session : Session)
      (found : system.sessions.lookup s = some session) (queue : session.out = q :: rest) :
      Turn system t (.drain s after) (system.setSession s { session with out := rest })
        (.release q (.drain s after))
  | drained (s : Nat) (after : Routine) (session : Session)
      (found : system.sessions.lookup s = some session) (empty : session.out = []) :
      Turn system t (.drain s after) system (.unlockClosing s after)
  | unlockClosing (s : Nat) (after : Routine) (session : Session)
      (found : system.sessions.lookup s = some session) :
      Turn system t (.unlockClosing s after)
        (system.setSession s { session with queueMu := none }) (.finish s after)
  | finish (s : Nat) (after : Routine) (session : Session)
      (found : system.sessions.lookup s = some session) :
      Turn system t (.finish s after)
        (system.setSession s { session with once := .finished }) (.routine after)

variable {system next : System limits} {t fresh : Nat} {order : Iteration Nat}
  {point later : Point limits}

theorem call_turn {rest : Routine} (taken : system.call t order rest = some (next, later)) :
    Turn system t (.routine rest) next later := by
  cases rest with
  | done => cases taken
  | pushFrame =>
    obtain ⟨session, _, taken⟩ := bind_eq_some_iff.mp taken
    split at taken <;> cases taken
    · exact .bare _ _ rfl rfl
    · exact .bare _ _ rfl rfl
  | disconnect s after =>
    obtain ⟨session, found, taken⟩ := bind_eq_some_iff.mp taken
    split at taken <;> cases taken
    next fresh =>
      exact .disconnect s after session found fresh
    · exact .bare _ _ rfl rfl
  | lockHub =>
    obtain ⟨_, taken⟩ := ite_none_right_eq_some.mp taken
    cases taken
    exact .bare _ _ rfl rfl
  | unlockHub after | rangeSessions after | unregister s after =>
    cases taken
    exact .bare _ _ rfl rfl
  | scan rest =>
    cases rest with
    | nil =>
      cases taken
      exact .bare _ _ rfl rfl
    | cons =>
      obtain ⟨session, _, taken⟩ := bind_eq_some_iff.mp taken
      split at taken <;> cases taken
      · exact .bare _ _ rfl rfl
      · exact .bare _ _ rfl rfl

theorem access_turn (taken : system.access t order fresh point = some (next, later)) :
    Turn system t point next later := by
  cases point with
  | routine => exact call_turn taken
  | swapSession s n _ fits after =>
    obtain ⟨session, found, taken⟩ := bind_eq_some_iff.mp taken
    split at taken <;> cases taken
    next same =>
      exact .reserve s n fits after session found same
    · exact .bare _ _ rfl rfl
  | loadHub s n =>
    dsimp only [System.access] at taken
    split at taken <;> cases taken
    · exact .reserving s n rfl rfl
    · exact .reserving s n rfl rfl
  | swapHub s n _ fits after =>
    dsimp only [System.access] at taken
    split at taken
    next same =>
      obtain ⟨unused, taken⟩ := ite_none_right_eq_some.mp taken
      cases taken
      exact .frame s n fits after fresh same unused
    · cases taken
      exact .reserving s n rfl rfl
  | giveBack s n after =>
    obtain ⟨session, found, taken⟩ := bind_eq_some_iff.mp taken
    cases taken
    exact .giveBack s n after session found
  | lockQueue s q after =>
    obtain ⟨session, found, taken⟩ := bind_eq_some_iff.mp taken
    obtain ⟨unlocked, taken⟩ := ite_none_right_eq_some.mp taken
    cases taken
    exact .lockQueue s q after session found unlocked
  | checkClosed s q after =>
    obtain ⟨session, found, taken⟩ := bind_eq_some_iff.mp taken
    split at taken <;> cases taken
    · exact .refuse s q after
    next opened =>
      exact .findsOpen s q after session found (Bool.eq_false_iff.mpr opened)
  | unlockRefused s q after =>
    obtain ⟨session, found, taken⟩ := bind_eq_some_iff.mp taken
    cases taken
    exact .unlockRefused s q after session found
  | send s q after =>
    obtain ⟨session, found, taken⟩ := bind_eq_some_iff.mp taken
    split at taken <;> cases taken
    · exact .send s q after session found
    · exact .full s q after
  | unlockQueue s after =>
    obtain ⟨session, found, taken⟩ := bind_eq_some_iff.mp taken
    cases taken
    exact .unlockQueue s after session found
  | release q caller =>
    obtain ⟨frame, found, taken⟩ := bind_eq_some_iff.mp taken
    split at taken <;> cases taken
    next fresh =>
      exact .release q caller frame found fresh
    next over_ =>
      exact .again q caller frame found over_
  | subtractSession q caller =>
    obtain ⟨frame, found, taken⟩ := bind_eq_some_iff.mp taken
    obtain ⟨session, held, taken⟩ := bind_eq_some_iff.mp taken
    cases taken
    exact .subtractSession q caller frame session found held
  | subtractHub q caller =>
    obtain ⟨frame, found, taken⟩ := bind_eq_some_iff.mp taken
    cases taken
    exact .subtractHub q caller frame found
  | lockClosing s after =>
    obtain ⟨session, found, taken⟩ := bind_eq_some_iff.mp taken
    obtain ⟨unlocked, taken⟩ := ite_none_right_eq_some.mp taken
    cases taken
    exact .lockClosing s after session found unlocked
  | setClosed s after =>
    obtain ⟨session, found, taken⟩ := bind_eq_some_iff.mp taken
    cases taken
    exact .setClosed s after session found
  | drain s after =>
    obtain ⟨session, found, taken⟩ := bind_eq_some_iff.mp taken
    split at taken <;> cases taken
    next q rest queue =>
      exact .drain s q rest after session found queue
    next empty =>
      exact .drained s after session found empty
  | unlockClosing s after =>
    obtain ⟨session, found, taken⟩ := bind_eq_some_iff.mp taken
    cases taken
    exact .unlockClosing s after session found
  | finish s after =>
    obtain ⟨session, found, taken⟩ := bind_eq_some_iff.mp taken
    cases taken
    exact .finish s after session found

/-! ### Points that hold little -/

section

variable (bare : point.bare = true)
include bare

theorem Point.reserves_of_bare : point.reserves = none := by
  cases point <;> first | rfl | cases bare

theorem Point.carries_of_bare : point.carries = none := by
  cases point <;> first | rfl | cases bare

theorem Point.releases_of_bare : point.releases = none := by
  cases point <;> first | rfl | cases bare

theorem Point.subtracts_of_bare : point.subtracts = none := by
  cases point <;> first | rfl | cases bare

end

variable {reservation : Nat × Nat}

section

variable (reserving : point.reserves = some reservation)
include reserving

theorem Point.carries_of_reserves :
    point.carries = none := by
  cases point <;> first | rfl | cases reserving

theorem Point.releases_of_reserves :
    point.releases = none := by
  cases point <;> first | rfl | cases reserving

theorem Point.subtracts_of_reserves :
    point.subtracts = none := by
  cases point <;> first | rfl | cases reserving

end

variable (caller : Caller)

@[simp] theorem Caller.reserves_resume :
    (caller.resume : Point limits).reserves = none := by cases caller <;> rfl

@[simp] theorem Caller.carries_resume :
    (caller.resume : Point limits).carries = none := by cases caller <;> rfl

@[simp] theorem Caller.releases_resume :
    (caller.resume : Point limits).releases = none := by cases caller <;> rfl

@[simp] theorem Caller.subtracts_resume :
    (caller.resume : Point limits).subtracts = none := by cases caller <;> rfl

/-! ### Sums -/

variable (frame : OutboundFrame)

def OutboundFrame.onSession (s : Nat) : Int :=
  if frame.session = s then
    match frame.once with
    | .fresh | .running _ false => frame.bytes
    | .running _ true | .finished => 0
  else 0

def OutboundFrame.onHub : Int :=
  match frame.once with
  | .fresh | .running .. => frame.bytes
  | .finished => 0

def Point.reserved (point : Point limits) (s : Nat) : Int :=
  point.reserves.elim 0 fun reservation => if reservation.1 = s then reservation.2 else 0

variable (frames : Dict Nat OutboundFrame)

def charged (s : Nat) : Int :=
  total (fun _ frame => frame.onSession s) frames

def reserved (threads : Dict Nat (Thread limits)) (s : Nat) : Int :=
  total (fun _ thread => thread.point.reserved s) threads

def chargedHub : Int :=
  total (fun _ frame => frame.onHub) frames

variable (system)

structure Accounts : Prop where
  session : ∀ s session, system.sessions.lookup s = some session →
    session.queuedBytes = charged system.frames s + reserved system.threads s
  hub : system.queuedBytes = chargedHub system.frames
  sessionLimit : ∀ s session, system.sessions.lookup s = some session →
    session.queuedBytes ≤ limits.sessionQueueBytes
  hubLimit : system.queuedBytes ≤ limits.hubQueueBytes

/-- The `once` of a frame runs in a goroutine exactly while the goroutine is inside it. -/
def Runs : Prop :=
  ∀ q t half, read none (fun frame => some frame.once) system.frames q =
      some (.running t half) ↔
    read none (fun thread => thread.point.subtracts) system.threads t = some (q, half)

variable {thread moved : Thread limits} {q s : Nat} {frame changed : OutboundFrame}

theorem reserved_insert {threads : Dict Nat (Thread limits)}
    (found : threads.lookup t = some thread) :
    reserved (threads.insert t moved) s =
      reserved threads s - thread.point.reserved s + moved.point.reserved s := by
  unfold reserved
  rw [total_insert, weightAt, found]
  rfl

variable {frames : Dict Nat OutboundFrame}

section

variable (found : frames.lookup q = some frame)
include found

theorem charged_insert_once {once : ReleaseOnce} :
    charged (frames.insert q { frame with once }) s = charged frames s - frame.onSession s +
        onSession { frame with once } s := by
  unfold charged
  rw [total_insert, weightAt, found]
  rfl

theorem chargedHub_insert_once {once : ReleaseOnce} :
    chargedHub (frames.insert q { frame with once }) =
      chargedHub frames - frame.onHub + onHub { frame with once } := by
  unfold chargedHub
  rw [total_insert, weightAt, found]
  rfl

theorem charged_begin (fresh : frame.once = .fresh) :
    charged (frames.insert q { frame with once := .running t false }) s = charged frames s := by
  rw [charged_insert_once found]
  simp only [onSession, fresh]
  omega

theorem chargedHub_begin (fresh : frame.once = .fresh) :
    chargedHub (frames.insert q { frame with once := .running t false }) = chargedHub frames := by
  rw [chargedHub_insert_once found]
  simp only [onHub, fresh]
  omega

theorem charged_halfway (begun : frame.once = .running t false) :
    charged (frames.insert q { frame with once := .running t true }) s =
      charged frames s - if frame.session = s then (frame.bytes : Int) else 0 := by
  rw [charged_insert_once found]
  simp only [onSession, begun, ite_self]
  omega

theorem chargedHub_halfway (begun : frame.once = .running t false) :
    chargedHub (frames.insert q { frame with once := .running t true }) = chargedHub frames := by
  rw [chargedHub_insert_once found]
  simp only [onHub, begun]
  omega

theorem charged_end (halfway : frame.once = .running t true) :
    charged (frames.insert q { frame with once := .finished }) s = charged frames s := by
  rw [charged_insert_once found]
  simp only [onSession, halfway, ite_self]
  omega

theorem chargedHub_end (halfway : frame.once = .running t true) :
    chargedHub (frames.insert q { frame with once := .finished }) =
      chargedHub frames - frame.bytes := by
  rw [chargedHub_insert_once found]
  simp only [onHub, halfway]
  omega

end

theorem charged_made (unused : frames.lookup q = none) :
    charged (frames.insert q { session := owner, bytes := n }) s =
      charged frames s + if owner = s then (n : Int) else 0 := by
  unfold charged
  rw [total_insert, weightAt, unused]
  exact congrArg (· + _) (Int.sub_zero _)

theorem chargedHub_made (unused : frames.lookup q = none) :
    chargedHub (frames.insert q { session := owner, bytes := n }) = chargedHub frames + n := by
  unfold chargedHub
  rw [total_insert, weightAt, unused]
  exact congrArg (· + _) (Int.sub_zero _)

variable {system}

theorem forall_setSession {Holds : Nat → Session → Prop} (here : Holds s updated)
    (elsewhere : ∀ other session, other ≠ s → system.sessions.lookup other = some session →
      Holds other session) :
    ∀ other session, (system.setSession s updated).sessions.lookup other = some session →
      Holds other session := by
  intro other session found
  rw [System.setSession, lookup_insert_eq] at found
  split at found
  next same =>
    cases found
    exact same ▸ here
  next different =>
    exact elsewhere other session different found

/-! ### The counters -/

theorem Accounts.move (accounts : Accounts system) (found : system.threads.lookup t = some thread)
    (threads : next.threads = system.threads)
    (counters : ∀ s changed, next.sessions.lookup s = some changed →
      ∃ session, system.sessions.lookup s = some session ∧
        changed.queuedBytes - session.queuedBytes =
          charged next.frames s - charged system.frames s +
            (moved.point.reserved s - thread.point.reserved s) ∧
        changed.queuedBytes ≤ limits.sessionQueueBytes)
    (hub : next.queuedBytes - system.queuedBytes =
      chargedHub next.frames - chargedHub system.frames)
    (hubLimit : next.queuedBytes ≤ limits.hubQueueBytes) : Accounts (next.setThread t moved) := by
  refine ⟨fun s changed held => ?_, ?_, fun s changed held => ?_, hubLimit⟩
  · obtain ⟨session, before, _, _⟩ := counters s changed held
    have sum := accounts.session s session before
    show _ = charged next.frames s + reserved (next.threads.insert t moved) s
    rw [threads, reserved_insert found]
    omega
  · have sum := accounts.hub
    show next.queuedBytes = chargedHub next.frames
    omega
  · obtain ⟨_, _, _, limit⟩ := counters s changed held
    exact limit

theorem Accounts.steady (accounts : Accounts system)
    (found : system.threads.lookup t = some thread) (threads : next.threads = system.threads)
    (frames : next.frames = system.frames) (bytes : next.queuedBytes = system.queuedBytes)
    (counters : ∀ s changed, next.sessions.lookup s = some changed →
      ∃ session, system.sessions.lookup s = some session ∧
        changed.queuedBytes = session.queuedBytes)
    (kept : moved.point.reserves = thread.point.reserves) : Accounts (next.setThread t moved) := by
  refine accounts.move found threads (fun s changed held => ?_) ?_ (bytes ▸ accounts.hubLimit)
  · obtain ⟨session, before, same⟩ := counters s changed held
    refine ⟨session, before, ?_, same ▸ accounts.sessionLimit s session before⟩
    unfold Point.reserved
    rw [frames, kept]
    omega
  · rw [frames, bytes]
    omega

theorem Runs.once (runs : Runs system) {half : Bool} (held : system.threads.lookup t = some thread)
    (inside : thread.point.subtracts = some (q, half))
    (found : system.frames.lookup q = some frame) : frame.once = .running t half := by
  have once := (runs q t half).mpr ((read_of_lookup held).trans inside)
  rw [read_of_lookup found] at once
  exact some.inj once

theorem Turn.accounts (accounts : Accounts system) (runs : Runs system)
    (held : system.threads.lookup t = some thread) (turn : Turn system t thread.point next later) :
    Accounts (next.setThread t { thread with point := later }) := by
  obtain ⟨_, point⟩ := thread
  have same : ∀ s changed, system.sessions.lookup s = some changed →
      ∃ session, system.sessions.lookup s = some session ∧
        changed.queuedBytes = session.queuedBytes := fun _ session found => ⟨session, found, rfl⟩
  cases turn with
  | bare _ _ before later =>
    refine accounts.steady held rfl rfl rfl same ?_
    exact (Point.reserves_of_bare later).trans (Point.reserves_of_bare before).symm
  | @reserve old s n fits after session found unchanged =>
    obtain ⟨_, _, room⟩ := id fits
    refine accounts.move held rfl ?_ ((sub_self _).trans (sub_self _).symm) accounts.hubLimit
    refine forall_setSession ⟨session, found, ?_, ?_⟩ fun other session different found =>
      ⟨session, found, ?_, accounts.sessionLimit other session found⟩
    · show old + n - _ = charged system.frames s - _ + ((if s = s then (n : Int) else 0) - 0)
      rw [if_pos rfl]
      omega
    · show old + n ≤ _
      omega
    · show _ = charged system.frames other - _ + ((if s = other then (n : Int) else 0) - 0)
      rw [if_neg (Ne.symm different)]
      omega
  | reserving _ _ before later =>
    exact accounts.steady held rfl rfl rfl same (later.trans before.symm)
  | giveBack s n _ session found =>
    have limit := accounts.sessionLimit s session found
    refine accounts.move held rfl ?_ ((sub_self _).trans (sub_self _).symm) accounts.hubLimit
    refine forall_setSession ⟨session, found, ?_, ?_⟩ fun other session different found =>
      ⟨session, found, ?_, accounts.sessionLimit other session found⟩
    · show session.queuedBytes - n - _ =
        charged system.frames s - _ + (0 - (if s = s then (n : Int) else 0))
      rw [if_pos rfl]
      omega
    · show session.queuedBytes - n ≤ _
      omega
    · show _ = charged system.frames other - _ + (0 - (if s = other then (n : Int) else 0))
      rw [if_neg (Ne.symm different)]
      omega
  | @frame old s n fits after fresh unchanged unused =>
    obtain ⟨_, _, room⟩ := id fits
    refine accounts.move held rfl (fun other session found => ?_) ?_ ?_
    · refine ⟨session, found, ?_, accounts.sessionLimit other session found⟩
      show _ = charged (system.frames.insert fresh _) other - _ +
        (0 - (if s = other then (n : Int) else 0))
      rw [charged_made unused]
      omega
    · show old + n - _ = chargedHub (system.frames.insert fresh _) - _
      rw [chargedHub_made unused]
      omega
    · show old + n ≤ _
      omega
  | lockQueue s q after session found unlocked | unlockRefused s q after session found
  | send s q after session found | unlockQueue s after session found
  | disconnect s after session found fresh | lockClosing s after session found unlocked
  | setClosed s after session found | drain s q rest after session found queue
  | unlockClosing s after session found | finish s after session found =>
    exact accounts.steady held rfl rfl rfl (forall_setSession ⟨session, found, rfl⟩
      fun _ session _ held => ⟨session, held, rfl⟩) rfl
  | refuse s q after | findsOpen s q after session found opened | full s q after
  | drained =>
    exact accounts.steady held rfl rfl rfl same rfl
  | again _ caller =>
    exact accounts.steady held rfl rfl rfl same caller.reserves_resume
  | release q _ _ found fresh =>
    refine accounts.move held rfl (fun other session found' => ?_) ?_ accounts.hubLimit
    · refine ⟨session, found', ?_, accounts.sessionLimit other session found'⟩
      show _ = charged (system.frames.insert q _) other - _ + ((0 : Int) - 0)
      rw [charged_begin found fresh]
      omega
    · show _ = chargedHub (system.frames.insert q _) - _
      rw [chargedHub_begin found fresh]
      exact (sub_self _).trans (sub_self _).symm
  | subtractSession q _ frame session found held' =>
    have begun := runs.once held rfl found
    have limit := accounts.sessionLimit frame.session session held'
    refine accounts.move held rfl ?_ ?_ accounts.hubLimit
    · show ∀ s changed, (system.setSession frame.session _).sessions.lookup s = some changed → _
      refine forall_setSession ⟨session, held', ?_, ?_⟩ fun other session different found' =>
        ⟨session, found', ?_, accounts.sessionLimit other session found'⟩
      · show session.queuedBytes - frame.bytes - _ =
          charged (system.frames.insert q _) frame.session - _ + ((0 : Int) - 0)
        rw [charged_halfway found begun, if_pos rfl]
        omega
      · show session.queuedBytes - frame.bytes ≤ _
        omega
      · show _ = charged (system.frames.insert q _) other - _ + ((0 : Int) - 0)
        rw [charged_halfway found begun, if_neg (Ne.symm different)]
        omega
    · show _ = chargedHub (system.frames.insert q _) - _
      rw [chargedHub_halfway found begun]
      exact (sub_self _).trans (sub_self _).symm
  | subtractHub q _ frame found =>
    have halfway := runs.once held rfl found
    have limit := accounts.hubLimit
    refine accounts.move held rfl (fun other session found' => ?_) ?_ ?_
    · refine ⟨session, found', ?_, accounts.sessionLimit other session found'⟩
      unfold Point.reserved
      rw [Caller.reserves_resume]
      show _ = charged (system.frames.insert q _) other - _ + ((0 : Int) - 0)
      rw [charged_end found halfway]
      omega
    · show system.queuedBytes - frame.bytes - _ = chargedHub (system.frames.insert q _) - _
      rw [chargedHub_end found halfway]
      omega
    · show system.queuedBytes - frame.bytes ≤ _
      omega

/-! ### Releases under way -/

theorem Runs.steady (runs : Runs system) (held : system.threads.lookup t = some thread)
    (threads : next.threads = system.threads) (frames : next.frames = system.frames)
    (kept : moved.point.subtracts = thread.point.subtracts) : Runs (next.setThread t moved) := by
  have inside : moved.point.subtracts =
      read none (fun thread => thread.point.subtracts) system.threads t := by
    rw [read_of_lookup held]
    exact kept
  intro q other half
  rw [System.setThread]
  rw [threads, frames, read_insert_same inside]
  exact runs q other half

theorem Runs.move (runs : Runs system) (held : system.threads.lookup t = some thread)
    (threads : next.threads = system.threads)
    (frames : next.frames = system.frames.insert q changed)
    (before : ∀ other half, thread.point.subtracts = some (other, half) → other = q)
    (after : ∀ half, moved.point.subtracts = some (q, half) ↔ changed.once = .running t half)
    (apart : ∀ other half, moved.point.subtracts = some (other, half) → other = q)
    (others : ∀ other half, other ≠ t → changed.once ≠ .running other half ∧
      read none (fun frame => some frame.once) system.frames q ≠ some (.running other half)) :
    Runs (next.setThread t moved) := by
  have inside : read none (fun thread => thread.point.subtracts) system.threads t =
      thread.point.subtracts := read_of_lookup held
  intro p other half
  rw [System.setThread]
  rw [threads, frames, read_insert, read_insert, update_apply, update_apply]
  by_cases here : p = q
  · rw [if_pos here]
    by_cases mine : other = t
    · rw [if_pos mine, mine, here]
      exact (some_inj.trans (after half).symm)
    · rw [if_neg mine, ← runs p other half, here, some_inj]
      exact iff_of_false (others other half mine).1 (others other half mine).2
  · rw [if_neg here, runs p other half]
    by_cases mine : other = t
    · rw [if_pos mine, mine, inside]
      exact iff_of_false (fun within => here (before p half within))
        fun within => here (apart p half within)
    · rw [if_neg mine]

theorem Turn.runs (runs : Runs system) (held : system.threads.lookup t = some thread)
    (turn : Turn system t thread.point next later) :
    Runs (next.setThread t { thread with point := later }) := by
  obtain ⟨_, point⟩ := thread
  cases turn with
  | bare _ _ before later =>
    exact runs.steady held rfl rfl
      ((Point.subtracts_of_bare later).trans (Point.subtracts_of_bare before).symm)
  | reserving _ _ before later =>
    exact runs.steady held rfl rfl
      ((Point.subtracts_of_reserves later).trans (Point.subtracts_of_reserves before).symm)
  | frame _ _ _ _ _ _ unused =>
    refine runs.move held rfl rfl ?_ ?_ ?_ ?_ <;> simp [Point.subtracts, read_of_absent unused]
  | again _ caller =>
    exact runs.steady held rfl rfl caller.subtracts_resume
  | release _ _ _ found fresh =>
    refine runs.move held rfl rfl ?_ ?_ ?_ ?_ <;>
      simp +contextual [Point.subtracts, read_of_lookup found, fresh, eq_comm]
  | subtractSession _ _ _ _ found =>
    have begun := runs.once held rfl found
    refine runs.move held rfl rfl ?_ ?_ ?_ ?_ <;>
      simp +contextual [Point.subtracts, read_of_lookup found, begun, eq_comm]
  | subtractHub _ caller _ found =>
    have halfway := runs.once held rfl found
    have outside : (caller.resume : Point limits).subtracts = none := caller.subtracts_resume
    refine runs.move held rfl rfl ?_ ?_ ?_ ?_
    · simp +contextual [Point.subtracts, eq_comm]
    · simp [outside]
    · simp [outside]
    · simp +contextual [read_of_lookup found, halfway, eq_comm]
  | reserve | giveBack | lockQueue | refuse | findsOpen | unlockRefused | send | full | unlockQueue
  | disconnect | lockClosing | setClosed | drain | drained | unlockClosing | finish =>
    exact runs.steady held rfl rfl rfl

end Ircthing.Hub.Outbound
