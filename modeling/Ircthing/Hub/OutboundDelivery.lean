/-
This file proves what holds of the outbound queues in every state the goroutines can reach.
-/

import Ircthing.Hub.OutboundAccounts
import Ircthing.Library.Custody

namespace Ircthing.Hub.Outbound

open Library Option Function Dict OutboundFrame Machine

variable {limits : QueueLimits} {system next : System limits} {t s q other : Nat}
  {thread moved : Thread limits} {point later : Point limits} {session : Session}
  {changed : OutboundFrame} {reservation : Nat × Nat} {rest : List Nat}

variable {updated : Session} {frame : OutboundFrame}

/-! ### Custody of the frames -/

/-- The session a frame is for, until its `Release` begins. -/
def OutboundFrame.liveFor (frame : OutboundFrame) : Option Nat :=
  match frame.once with
  | .fresh => some frame.session
  | .running .. | .finished => none

def System.custody (system : System limits) : Custody Nat Nat Nat where
  carries := read none (fun thread => thread.point.carries) system.threads
  drops := read none (fun thread => thread.point.releases) system.threads
  queue := read [] Session.out system.sessions
  live := read none liveFor system.frames
  known := read false (fun _ => true) system.frames
  taken := system.received

theorem queue_setSession (found : system.sessions.lookup s = some session)
    (same : updated.out = session.out) :
    (system.setSession s updated).custody.queue = system.custody.queue := by
  refine read_insert_same ?_
  rw [read_of_lookup found]
  exact same

theorem known_setFrame (found : system.frames.lookup q = some frame) :
    (system.setFrame q changed).custody.known = system.custody.known := by
  refine read_insert_same ?_
  rw [read_of_lookup found]

theorem live_setFrame (found : system.frames.lookup q = some frame)
    (same : changed.liveFor = frame.liveFor) :
    (system.setFrame q changed).custody.live = system.custody.live := by
  refine read_insert_same ?_
  rw [read_of_lookup found]
  exact same

theorem read_setThread {Held : Type} (view : Point limits → Option Held)
    (held : system.threads.lookup t = some thread) (threads : next.threads = system.threads)
    (same : view moved.point = view thread.point) :
    read none (fun thread => view thread.point) (next.setThread t moved).threads =
      read none (fun thread => view thread.point) system.threads := by
  show read none _ (next.threads.insert t moved) = _
  rw [threads]
  refine read_insert_same ?_
  rw [read_of_lookup held]
  exact same

theorem carries_setThread (held : system.threads.lookup t = some thread)
    (threads : next.threads = system.threads) (same : moved.point.carries = thread.point.carries) :
    (next.setThread t moved).custody.carries = system.custody.carries :=
  read_setThread Point.carries held threads same

theorem drops_setThread (held : system.threads.lookup t = some thread)
    (threads : next.threads = system.threads)
    (same : moved.point.releases = thread.point.releases) :
    (next.setThread t moved).custody.drops = system.custody.drops :=
  read_setThread Point.releases held threads same

theorem Turn.custody (runs : Runs system) (held : system.threads.lookup t = some thread)
    (turn : Turn system t thread.point next later) :
    Custody.Moves system.custody (next.setThread t { thread with point := later }).custody := by
  obtain ⟨_, point⟩ := thread
  have carries : system.custody.carries t = point.carries := read_of_lookup held
  have drops : system.custody.drops t = point.releases := read_of_lookup held
  cases turn with
  | bare _ _ before later =>
    refine Custody.Moves.stays.of_eq (Custody.ext (carries_setThread held rfl ?_)
      (drops_setThread held rfl ?_) rfl rfl rfl rfl)
    · exact (Point.carries_of_bare later).trans (Point.carries_of_bare before).symm
    · exact (Point.releases_of_bare later).trans (Point.releases_of_bare before).symm
  | reserving _ _ before later =>
    refine Custody.Moves.stays.of_eq (Custody.ext (carries_setThread held rfl ?_)
      (drops_setThread held rfl ?_) rfl rfl rfl rfl)
    · exact (Point.carries_of_reserves later).trans (Point.carries_of_reserves before).symm
    · exact (Point.releases_of_reserves later).trans (Point.releases_of_reserves before).symm
  | frame s _ _ _ fresh _ unused =>
    exact (Custody.Moves.made t s fresh (read_of_absent unused) carries).of_eq
      (Custody.ext read_insert (drops_setThread held rfl rfl) rfl read_insert read_insert rfl)
  | unlockRefused s q _ _ found =>
    exact (Custody.Moves.dropped t s q carries drops).of_eq
      (Custody.ext read_insert read_insert (queue_setSession found rfl) rfl rfl rfl)
  | full s q =>
    exact (Custody.Moves.dropped t s q carries drops).of_eq
      (Custody.ext read_insert read_insert rfl rfl rfl rfl)
  | send s q _ session found =>
    have queue : system.custody.queue s = session.out := read_of_lookup found
    refine (Custody.Moves.sent t s q carries).of_eq
      (Custody.ext read_insert (drops_setThread held rfl rfl) ?_ rfl rfl rfl)
    rw [queue]
    exact read_insert
  | drain s q rest _ session found first =>
    have queue : system.custody.queue s = session.out := read_of_lookup found
    exact (Custody.Moves.drained t s q rest (queue.trans first) drops).of_eq
      (Custody.ext (carries_setThread held rfl rfl) read_insert read_insert rfl rfl rfl)
  | again q caller frame found finished =>
    have dead : system.custody.live q = frame.liveFor := read_of_lookup found
    refine (Custody.Moves.left t q drops (dead.trans ?_)).of_eq
      (Custody.ext (carries_setThread held rfl caller.carries_resume) ?_ rfl rfl rfl rfl)
    · rw [liveFor, finished]
    · exact read_insert.trans (congrArg _ caller.releases_resume)
  | release q _ _ found =>
    exact (Custody.Moves.ended t q drops).of_eq
      (Custody.ext (carries_setThread held rfl rfl) (drops_setThread held rfl rfl) rfl
        read_insert (known_setFrame found) rfl)
  | subtractSession q _ frame _ found held' =>
    have begun := runs.once held rfl found
    have live : (system.setFrame q { frame with once := .running t true }).custody.live =
        system.custody.live := live_setFrame found (by
      rw [liveFor, liveFor, begun])
    have known : (system.setFrame q { frame with once := .running t true }).custody.known =
        system.custody.known := known_setFrame found
    exact Custody.Moves.stays.of_eq (Custody.ext (carries_setThread held rfl rfl)
      (drops_setThread held rfl rfl) (queue_setSession held' rfl) live known rfl)
  | subtractHub q caller frame found =>
    have halfway := runs.once held rfl found
    have dead : system.custody.live q = frame.liveFor := read_of_lookup found
    have live : (system.setFrame q { frame with once := .finished }).custody.live =
        system.custody.live := live_setFrame found (by
      rw [liveFor, liveFor, halfway])
    have known : (system.setFrame q { frame with once := .finished }).custody.known =
        system.custody.known := known_setFrame found
    refine (Custody.Moves.left t q drops (dead.trans ?_)).of_eq
      (Custody.ext (carries_setThread held rfl caller.carries_resume) ?_ rfl live known rfl)
    · rw [liveFor, halfway]
    · exact read_insert.trans (congrArg _ caller.releases_resume)
  | refuse | findsOpen | drained =>
    exact Custody.Moves.stays.of_eq (Custody.ext (carries_setThread held rfl rfl)
      (drops_setThread held rfl rfl) rfl rfl rfl rfl)
  | reserve _ _ _ _ _ found | giveBack _ _ _ _ found | lockQueue _ _ _ _ found
  | unlockQueue _ _ _ found | disconnect _ _ _ found | lockClosing _ _ _ found
  | setClosed _ _ _ found | unlockClosing _ _ _ found | finish _ _ _ found =>
    exact Custody.Moves.stays.of_eq (Custody.ext (carries_setThread held rfl rfl)
      (drops_setThread held rfl rfl) (queue_setSession found rfl) rfl rfl rfl)

/-! ### The lock of a queue -/

def System.pointOf (system : System limits) : Nat → Point limits :=
  read (.routine .done) Thread.point system.threads

def System.sessionOf (system : System limits) : Nat → Session :=
  read {} id system.sessions

/-- What a goroutine holds of a session is its own, and what it found out still holds. A session
marked closed has a disconnect that began, and after it an empty queue. -/
structure Guarded (points : Nat → Point limits) (sessions : Nat → Session) : Prop where
  lock : ∀ t s, (points t).locks = some s → (sessions s).queueMu = some t
  once : ∀ t s, (points t).disconnects = some s ↔ (sessions s).once = .running t
  opened : ∀ t s, (points t).admits = some s → (sessions s).closed = false
  closed : ∀ t s, (points t).closes = some s → (sessions s).closed = true
  empty : ∀ t s, (points t).empties = some s → (sessions s).out = []
  begun : ∀ s, (sessions s).closed = true → (sessions s).once ≠ .fresh
  finished : ∀ s, (sessions s).once = .finished → (sessions s).closed = true ∧ (sessions s).out = []

theorem Point.locks_of_admits (admits : point.admits = some s) : point.locks = some s := by
  cases point <;> first | exact admits | cases admits

theorem Point.closes_of_empties (empties : point.empties = some s) : point.closes = some s := by
  cases point <;> first | exact empties | cases empties

variable {points : Nat → Point limits} {sessions : Nat → Session}

section

variable (guarded : Guarded points sessions)
include guarded

theorem Guarded.counter (bytes : Int) :
    Guarded points (update sessions s { sessions s with queuedBytes := bytes }) := by
  constructor <;> simp only [update_apply]
  · grind [guarded.lock]
  · grind [guarded.once]
  · grind [guarded.opened]
  · grind [guarded.closed]
  · grind [guarded.empty]
  · grind [guarded.begun]
  · grind [guarded.finished]

theorem Guarded.steady
    (lock : later.locks = (points t).locks) (once : later.disconnects = (points t).disconnects)
    (opened : ∀ s, later.admits = some s → (sessions s).closed = false)
    (closed : ∀ s, later.closes = some s → (sessions s).closed = true)
    (empty : ∀ s, later.empties = some s → (sessions s).out = []) :
    Guarded (update points t later) sessions := by
  refine ⟨?_, ?_, ?_, ?_, ?_, guarded.begun, guarded.finished⟩ <;> simp only [update_apply]
  · grind [guarded.lock]
  · grind [guarded.once]
  · grind [guarded.opened]
  · grind [guarded.closed]
  · grind [guarded.empty]

theorem Guarded.lockQueue (free : (sessions s).queueMu = none) (lock : later.locks = some s)
    (once : later.disconnects = (points t).disconnects) (opened : later.admits = none)
    (closed : later.closes = none) (empty : later.empties = none) :
    Guarded (update points t later)
      (update sessions s { sessions s with queueMu := some t }) := by
  constructor <;> simp only [update_apply]
  · grind [guarded.lock]
  · grind [guarded.once]
  · grind [guarded.opened]
  · grind [guarded.closed]
  · grind [guarded.empty]
  · grind [guarded.begun]
  · grind [guarded.finished]

theorem Guarded.unlock (held : (points t).locks = some s) (lock : later.locks = none)
    (once : later.disconnects = (points t).disconnects) (opened : later.admits = none)
    (closed : ∀ s, later.closes = some s → (sessions s).closed = true)
    (empty : ∀ s, later.empties = some s → (sessions s).out = []) :
    Guarded (update points t later)
      (update sessions s { sessions s with queueMu := none }) := by
  have mine := guarded.lock t s held
  constructor <;> simp only [update_apply]
  · grind [guarded.lock]
  · grind [guarded.once]
  · grind [guarded.opened]
  · grind [guarded.closed]
  · grind [guarded.empty]
  · grind [guarded.begun]
  · grind [guarded.finished]

theorem Guarded.enqueue {out : List Nat} (open_ : (sessions s).closed = false)
    (lock : later.locks = (points t).locks) (once : later.disconnects = (points t).disconnects)
    (opened : later.admits = none) (closed : later.closes = none) (empty : later.empties = none) :
    Guarded (update points t later)
      (update sessions s { sessions s with out }) := by
  have full : ∀ t, (points t).empties ≠ some s := fun t drained => by
    have shut := guarded.closed t s (Point.closes_of_empties drained)
    rw [open_] at shut
    cases shut
  constructor <;> simp only [update_apply]
  · grind [guarded.lock]
  · grind [guarded.once]
  · grind [guarded.opened]
  · grind [guarded.closed]
  · grind [guarded.empty]
  · grind [guarded.begun]
  · grind [guarded.finished]

theorem Guarded.dequeue (first : (sessions s).out = q :: rest) :
    Guarded points (update sessions s { sessions s with out := rest }) := by
  constructor <;> simp only [update_apply]
  · grind [guarded.lock]
  · grind [guarded.once]
  · grind [guarded.opened]
  · grind [guarded.closed]
  · grind [guarded.empty]
  · grind [guarded.begun]
  · grind [guarded.finished]

theorem Guarded.close (held : (points t).locks = some s) (running : (points t).disconnects = some s)
    (lock : later.locks = some s) (once : later.disconnects = some s) (opened : later.admits = none)
    (closed : later.closes = some s) (empty : later.empties = none) :
    Guarded (update points t later)
      (update sessions s { sessions s with closed := true }) := by
  have began := (guarded.once t s).mp running
  -- who has found the session open holds the lock as well, and there is one holder
  have alone : ∀ other, other ≠ t → (points other).admits ≠ some s := by
    intro other different admits
    have theirs := guarded.lock other s (Point.locks_of_admits admits)
    rw [guarded.lock t s held] at theirs
    exact different (some.inj theirs).symm
  constructor <;> simp only [update_apply]
  · grind [guarded.lock]
  · grind [guarded.once]
  · grind [guarded.opened]
  · grind [guarded.closed]
  · grind [guarded.empty]
  · grind [guarded.begun]
  · grind [guarded.finished]

theorem Guarded.begin (fresh : (sessions s).once = .fresh) (outside : (points t).disconnects = none)
    (lock : later.locks = none) (once : later.disconnects = some s) (opened : later.admits = none)
    (closed : later.closes = none) (empty : later.empties = none) :
    Guarded (update points t later)
      (update sessions s { sessions s with once := .running t }) := by
  constructor <;> simp only [update_apply]
  · grind [guarded.lock]
  · grind [guarded.once]
  · grind [guarded.opened]
  · grind [guarded.closed]
  · grind [guarded.empty]
  · grind [guarded.begun]
  · grind [guarded.finished]

theorem Guarded.finish (running : (points t).disconnects = some s)
    (marked : (points t).closes = some s) (drained : (points t).empties = some s)
    (lock : later.locks = none) (once : later.disconnects = none) (opened : later.admits = none)
    (closed : later.closes = none) (empty : later.empties = none) :
    Guarded (update points t later)
      (update sessions s { sessions s with once := .finished }) := by
  have began := (guarded.once t s).mp running
  have shut := guarded.closed t s marked
  have bare := guarded.empty t s drained
  constructor <;> simp only [update_apply]
  · grind [guarded.lock]
  · grind [guarded.once]
  · grind [guarded.opened]
  · grind [guarded.closed]
  · grind [guarded.empty]
  · grind [guarded.begun]
  · grind [guarded.finished]

end

variable (caller : Caller)

@[simp] theorem Caller.locks_resume :
    (caller.resume : Point limits).locks = caller.locks := by cases caller <;> rfl

@[simp] theorem Caller.disconnects_resume :
    (caller.resume : Point limits).disconnects = caller.disconnects := by cases caller <;> rfl

@[simp] theorem Caller.closes_resume :
    (caller.resume : Point limits).closes = caller.disconnects := by cases caller <;> rfl

@[simp] theorem Caller.admits_resume :
    (caller.resume : Point limits).admits = none := by cases caller <;> rfl

@[simp] theorem Caller.empties_resume :
    (caller.resume : Point limits).empties = none := by cases caller <;> rfl

structure Point.Free (point : Point limits) : Prop where
  lock : point.locks = none
  once : point.disconnects = none
  opened : point.admits = none
  closed : point.closes = none
  empty : point.empties = none

theorem Point.free_of_bare (bare : point.bare = true) : point.Free := by
  cases point <;> first | exact ⟨rfl, rfl, rfl, rfl, rfl⟩ | cases bare

theorem Point.free_of_reserves (reserving : point.reserves = some reservation) : point.Free := by
  cases point <;> first | exact ⟨rfl, rfl, rfl, rfl, rfl⟩ | cases reserving

theorem Guarded.free (guarded : Guarded points sessions) (before : (points t).Free)
    (after : later.Free) : Guarded (update points t later) sessions := by
  refine guarded.steady (after.lock.trans before.lock.symm) (after.once.trans before.once.symm)
    (fun s found => ?_) (fun s found => ?_) fun s found => ?_
  · rw [after.opened] at found
    cases found
  · rw [after.closed] at found
    cases found
  · rw [after.empty] at found
    cases found

theorem Guarded.resume (guarded : Guarded points sessions) {caller : Caller}
    (lock : (points t).locks = caller.locks) (once : (points t).disconnects = caller.disconnects)
    (closed : (points t).closes = caller.disconnects) :
    Guarded (update points t caller.resume) sessions := by
  refine guarded.steady (caller.locks_resume.trans lock.symm)
    (caller.disconnects_resume.trans once.symm) (fun s same => ?_) (fun s same => ?_)
    fun s same => ?_
  · rw [Caller.admits_resume] at same
    cases same
  · rw [Caller.closes_resume] at same
    exact guarded.closed t s (closed.trans same)
  · rw [Caller.empties_resume] at same
    cases same

theorem pointOf_setThread :
    (next.setThread t moved).pointOf = update next.pointOf t moved.point :=
  read_insert

theorem sessionOf_setSession :
    ((system.setSession s updated).setThread t moved).sessionOf =
      update system.sessionOf s updated :=
  read_insert

theorem Turn.guarded (guarded : Guarded system.pointOf system.sessionOf)
    (held : system.threads.lookup t = some thread) (turn : Turn system t thread.point next later) :
    Guarded (next.setThread t { thread with point := later }).pointOf
      (next.setThread t { thread with point := later }).sessionOf := by
  obtain ⟨_, point⟩ := thread
  have here : system.pointOf t = point := read_of_lookup held
  have there : ∀ {s : Nat} {session : Session}, system.sessions.lookup s = some session →
      system.sessionOf s = session := read_of_lookup
  have locks : (system.pointOf t).locks = point.locks := congrArg _ here
  have disconnects : (system.pointOf t).disconnects = point.disconnects := congrArg _ here
  have closes : (system.pointOf t).closes = point.closes := congrArg _ here
  rw [pointOf_setThread]
  cases turn with
  | bare _ _ before later =>
    exact guarded.free (here ▸ Point.free_of_bare before) (Point.free_of_bare later)
  | reserving _ _ before later =>
    exact guarded.free (here ▸ Point.free_of_reserves before) (Point.free_of_reserves later)
  | frame =>
    exact guarded.free (here ▸ ⟨rfl, rfl, rfl, rfl, rfl⟩) ⟨rfl, rfl, rfl, rfl, rfl⟩
  | reserve s n fits after session found unchanged | giveBack s n after session found =>
    obtain rfl := there found
    rw [sessionOf_setSession]
    exact (guarded.free (here ▸ ⟨rfl, rfl, rfl, rfl, rfl⟩) ⟨rfl, rfl, rfl, rfl, rfl⟩).counter _
  | lockQueue s q after session found unlocked | lockClosing s after session found unlocked =>
    obtain rfl := there found
    rw [sessionOf_setSession]
    exact guarded.lockQueue unlocked rfl disconnects.symm rfl rfl rfl
  | refuse s q after | full s q after =>
    exact guarded.steady locks.symm disconnects.symm nofun nofun nofun
  | findsOpen _ _ _ _ found opened =>
    obtain rfl := there found
    refine guarded.steady locks.symm disconnects.symm (fun other same => ?_) nofun nofun
    cases same
    exact opened
  | unlockRefused s q after session found | unlockQueue s after session found =>
    obtain rfl := there found
    rw [sessionOf_setSession]
    exact guarded.unlock locks rfl disconnects.symm rfl nofun nofun
  | send s _ _ _ found =>
    obtain rfl := there found
    rw [sessionOf_setSession]
    exact guarded.enqueue (guarded.opened t s (congrArg Point.admits here))
      locks.symm disconnects.symm rfl rfl rfl
  | again q caller frame found finished | subtractHub q caller frame found =>
    exact guarded.resume locks disconnects closes
  | release =>
    exact guarded.steady locks.symm disconnects.symm
      nofun (fun s same => guarded.closed t s (closes.trans same)) nofun
  | subtractSession q caller frame session _ held' =>
    obtain rfl := there held'
    show Guarded _ (read {} id (system.sessions.insert frame.session _))
    rw [read_insert]
    have steady : Guarded (update system.pointOf t (.subtractHub q caller))
        system.sessionOf :=
      guarded.steady locks.symm disconnects.symm
        nofun (fun s same => guarded.closed t s (closes.trans same)) nofun
    exact steady.counter _
  | disconnect _ _ _ found fresh =>
    obtain rfl := there found
    rw [sessionOf_setSession]
    exact guarded.begin fresh disconnects rfl rfl rfl rfl rfl
  | setClosed _ _ _ found =>
    obtain rfl := there found
    rw [sessionOf_setSession]
    exact guarded.close locks disconnects rfl rfl rfl rfl rfl
  | drain s q _ after _ found queue =>
    obtain rfl := there found
    rw [sessionOf_setSession]
    have steady : Guarded (update system.pointOf t (.release q (.drain s after)))
        system.sessionOf :=
      guarded.steady locks.symm disconnects.symm
        nofun (fun s same => guarded.closed t s (closes.trans same)) nofun
    exact steady.dequeue queue
  | drained s _ _ found empty =>
    obtain rfl := there found
    refine guarded.steady locks.symm disconnects.symm nofun (fun s same => ?_) fun other same => ?_
    · exact guarded.closed t s (closes.trans same)
    · cases same
      exact empty
  | unlockClosing s _ _ found =>
    obtain rfl := there found
    rw [sessionOf_setSession]
    refine guarded.unlock locks rfl disconnects.symm rfl (fun s same => ?_) fun s same => ?_
    · exact guarded.closed t s (closes.trans same)
    · exact guarded.empty t s ((congrArg Point.empties here).trans same)
  | finish _ _ _ found =>
    obtain rfl := there found
    rw [sessionOf_setSession]
    exact guarded.finish disconnects closes (congrArg Point.empties here) rfl rfl rfl rfl rfl

/-! ### Sessions that were made -/

structure Known (system : System limits) : Prop where
  reserving : ∀ t thread reservation, system.threads.lookup t = some thread →
    thread.point.reserves = some reservation → (system.sessions.lookup reservation.1).isSome
  frames : ∀ q frame, system.frames.lookup q = some frame →
    (system.sessions.lookup frame.session).isSome

theorem isSome_setSession (made : (system.sessions.lookup other).isSome) :
    ((system.setSession s updated).sessions.lookup other).isSome := by
  rw [System.setSession, lookup_insert_eq]
  split
  · rfl
  · exact made

section

variable (turn : Turn system t point next later)
include turn

theorem Turn.made
    (before : (system.sessions.lookup other).isSome) : (next.sessions.lookup other).isSome := by
  cases turn <;> first | exact before | exact isSome_setSession before

theorem Turn.reserves
    (reserving : later.reserves = some reservation) :
    point.reserves = some reservation ∨ (system.sessions.lookup reservation.1).isSome := by
  cases turn with
  | bare _ _ _ later =>
    rw [Point.reserves_of_bare later] at reserving
    cases reserving
  | reserve _ _ _ _ session found =>
    cases reserving
    exact .inr (isSome_iff_exists.mpr ⟨session, found⟩)
  | reserving _ _ before later => exact .inl (before.trans (later.symm.trans reserving))
  | again q caller frame found finished | subtractHub q caller frame found =>
    rw [Caller.reserves_resume] at reserving
    cases reserving
  | _ => cases reserving

theorem Turn.frames
    (found : next.frames.lookup q = some frame) :
    (∃ old, system.frames.lookup q = some old ∧ old.session = frame.session) ∨
      ∃ n, point.reserves = some (frame.session, n) := by
  have changed : ∀ {p : Nat} {old : OutboundFrame} {once : ReleaseOnce},
      system.frames.lookup p = some old →
      (system.frames.insert p { old with once }).lookup q = some frame →
      ∃ old, system.frames.lookup q = some old ∧ old.session = frame.session := by
    intro p old once before found
    rw [lookup_insert_eq] at found
    split at found
    next here =>
      cases found
      exact ⟨old, here ▸ before, rfl⟩
    · exact ⟨frame, found, rfl⟩
  cases turn with
  | frame _ n =>
    rw [System.setFrame, lookup_insert_eq] at found
    split at found
    · cases found
      exact .inr ⟨n, rfl⟩
    · exact .inl ⟨frame, found, rfl⟩
  | release p caller old before fresh | subtractSession p caller old session before held
  | subtractHub _ _ _ before =>
    exact .inl (changed before found)
  | _ => exact .inl ⟨frame, found, rfl⟩

end

theorem Turn.known (known : Known system) (held : system.threads.lookup t = some thread)
    (turn : Turn system t thread.point next later) (threads : next.threads = system.threads) :
    Known (next.setThread t { thread with point := later }) := by
  constructor
  · intro other thread' reservation found reserving
    rw [System.setThread, lookup_insert_eq, threads] at found
    refine turn.made ?_
    split at found
    · cases found
      exact (turn.reserves reserving).elim (known.reserving t thread reservation held) id
    · exact known.reserving other thread' reservation found reserving
  · intro q frame found
    refine turn.made ?_
    obtain ⟨old, before, same⟩ | ⟨_, reserving⟩ := turn.frames found
    · exact same ▸ known.frames q old before
    · exact known.reserving t thread _ held reserving

theorem Turn.threads (turn : Turn system t point next later) : next.threads = system.threads := by
  cases turn <;> rfl

/-! ### Actions -/

structure Consistent (system : System limits) : Prop where
  accounts : Accounts system
  runs : Runs system
  placed : ∃ place, system.custody.Placed place
  guarded : Guarded system.pointOf system.sessionOf
  known : Known system

theorem consistent_empty : Consistent ({} : System limits) := by
  refine ⟨⟨nofun, rfl, nofun, Int.natCast_nonneg _⟩, fun _ _ _ => ⟨nofun, nofun⟩,
    ⟨fun _ => .loose, ?_⟩, ?_, ⟨nofun, nofun⟩⟩
  · constructor <;> intros <;> simp_all [System.custody, Dict.read]
  · constructor <;> intros <;> simp_all [System.pointOf, System.sessionOf, Dict.read, Point.locks,
      Point.disconnects, Point.admits, Point.closes, Point.empties]

theorem Known.charged (known : Known system) (absent : system.sessions.lookup s = none) :
    charged system.frames s = 0 := by
  refine (total_congr_weight fun q frame found => ?_).trans (total_zero _)
  have made := known.frames q frame found
  refine if_neg fun same => ?_
  rw [same, absent] at made
  cases made

theorem Known.reserved (known : Known system) (absent : system.sessions.lookup s = none) :
    reserved system.threads s = 0 := by
  refine (total_congr_weight fun t thread found => ?_).trans (total_zero _)
  unfold Point.reserved
  cases reserves : thread.point.reserves with
  | none => rfl
  | some reservation =>
    have made := known.reserving t thread reservation found reserves
    refine if_neg fun same => ?_
    rw [same, absent] at made
    cases made

section

variable (consistent : Consistent system)
include consistent

theorem Consistent.newSession
    (absent : system.sessions.lookup s = none) (registered : List Nat) :
    Consistent { system.setSession s {} with registered } := by
  have queues : read [] Session.out (system.sessions.insert s {}) = system.custody.queue :=
    read_insert_same (read_of_absent absent).symm
  have sessions : read {} id (system.sessions.insert s {}) = system.sessionOf :=
    read_insert_same (read_of_absent absent).symm
  refine ⟨⟨?_, consistent.accounts.hub, ?_, consistent.accounts.hubLimit⟩, consistent.runs, ?_, ?_,
    ⟨fun t thread reservation held reserving => ?_, fun q frame found => ?_⟩⟩
  · refine forall_setSession ?_ fun other session _ found =>
      consistent.accounts.session other session found
    show 0 = charged system.frames s + reserved system.threads s
    rw [consistent.known.charged absent, consistent.known.reserved absent]
    rfl
  · exact forall_setSession (Int.natCast_nonneg _) fun other session _ found =>
      consistent.accounts.sessionLimit other session found
  · have same : System.custody { system.setSession s {} with registered } = system.custody :=
      Custody.ext rfl rfl queues rfl rfl rfl
    exact same ▸ consistent.placed
  · show Guarded system.pointOf (read {} id (system.sessions.insert s {}))
    exact sessions ▸ consistent.guarded
  · exact isSome_setSession (consistent.known.reserving t thread reservation held reserving)
  · exact isSome_setSession (consistent.known.frames q frame found)

theorem Consistent.start {operation : Operation}
    (absent : system.threads.lookup t = none) (allowed : operation.allowed system.received = true) :
    Consistent (system.setThread t { operation, point := operation.point }) := by
  have reserves : (operation.point : Point limits).reserves = none := by cases operation <;> rfl
  have carries : (operation.point : Point limits).carries = none := by cases operation <;> rfl
  have subtracts : (operation.point : Point limits).subtracts = none := by cases operation <;> rfl
  have free : (operation.point : Point limits).Free := by
    cases operation <;> exact ⟨rfl, rfl, rfl, rfl, rfl⟩
  have idle : system.pointOf t = .routine .done := read_of_absent absent
  obtain ⟨_, placed⟩ := consistent.placed
  refine ⟨⟨fun s session found => ?_, consistent.accounts.hub, consistent.accounts.sessionLimit,
    consistent.accounts.hubLimit⟩, fun q other half => ?_, ?_, ?_, ⟨?_, consistent.known.frames⟩⟩
  · have sum := consistent.accounts.session s session found
    show _ = charged system.frames s + total _ (system.threads.insert t _)
    rw [total_insert, weightAt, absent]
    unfold Point.reserved
    rw [reserves]
    show _ = _ + (reserved system.threads s - 0 + 0)
    omega
  · show _ ↔ read none _ (system.threads.insert t _) other = _
    rw [read_insert_same (by
      rw [read_of_absent absent]
      exact subtracts)]
    exact consistent.runs q other half
  · have carried : (system.setThread t { operation, point := operation.point }).custody.carries =
        system.custody.carries := read_insert_same (by
      rw [read_of_absent absent]
      exact carries)
    have drops : system.custody.drops t = none := read_of_absent absent
    cases operation with
    | release q =>
      have had : q ∈ system.custody.taken := List.contains_iff_mem.mp allowed
      exact ((Custody.Moves.gave t q had drops).of_eq
        (Custody.ext carried read_insert rfl rfl rfl rfl)).placed placed
    | push | broadcast | close =>
      refine (Custody.Moves.stays.of_eq (Custody.ext carried ?_ rfl rfl rfl rfl)).placed placed
      refine read_insert_same ?_
      rw [read_of_absent absent]
      rfl
  · rw [pointOf_setThread]
    exact consistent.guarded.free (idle ▸ ⟨rfl, rfl, rfl, rfl, rfl⟩) free
  · intro other thread reservation held reserving
    rw [System.setThread, lookup_insert_eq] at held
    split at held
    · cases held
      rw [reserves] at reserving
      cases reserving
    · exact consistent.known.reserving other thread reservation held reserving

theorem Consistent.receive
    (found : system.sessions.lookup s = some session) (first : session.out = q :: rest) :
    Consistent { system.setSession s { session with out := rest } with
      received := system.received ++ [q] } := by
  obtain ⟨_, placed⟩ := consistent.placed
  have queue : system.custody.queue s = session.out := read_of_lookup found
  refine ⟨⟨?_, consistent.accounts.hub, ?_, consistent.accounts.hubLimit⟩, consistent.runs, ?_, ?_,
    ⟨fun t thread reservation held reserving => ?_, fun q frame found => ?_⟩⟩
  · exact forall_setSession (consistent.accounts.session s session found)
      fun other session _ found => consistent.accounts.session other session found
  · exact forall_setSession (consistent.accounts.sessionLimit s session found)
      fun other session _ found => consistent.accounts.sessionLimit other session found
  · have queues : read [] Session.out (system.sessions.insert s { session with out := rest }) =
        update system.custody.queue s rest := read_insert
    have same : System.custody { system.setSession s { session with out := rest } with
        received := system.received ++ [q] } = { system.custody with
          queue := update system.custody.queue s rest
          taken := system.custody.taken ++ [q] } := Custody.ext rfl rfl queues rfl rfl rfl
    exact same ▸ (Custody.Moves.took s q rest (queue.trans first)).placed placed
  · obtain rfl : system.sessionOf s = session := read_of_lookup found
    show Guarded _ (read {} id (system.sessions.insert s _))
    rw [read_insert]
    exact consistent.guarded.dequeue first
  · exact isSome_setSession (consistent.known.reserving t thread reservation held reserving)
  · exact isSome_setSession (consistent.known.frames q frame found)

theorem Consistent.step {action : Action}
    (taken : system.step action = some next) : Consistent next := by
  cases action with
  | newSession =>
    obtain ⟨⟨_, absent⟩, taken⟩ := ite_none_right_eq_some.mp taken
    split at taken <;> cases taken
    · exact consistent
    · exact consistent.newSession absent _
  | start =>
    obtain ⟨⟨absent, allowed⟩, taken⟩ := ite_none_right_eq_some.mp taken
    cases taken
    exact consistent.start absent allowed
  | receive =>
    obtain ⟨_, found, taken⟩ := bind_eq_some_iff.mp taken
    split at taken <;> cases taken
    rename_i q rest first
    exact consistent.receive found first
  | step =>
    obtain ⟨_, held, taken⟩ := bind_eq_some_iff.mp taken
    obtain ⟨⟨_, _⟩, accessed, rfl⟩ := map_eq_some_iff.mp taken
    have turn := access_turn accessed
    obtain ⟨_, placed⟩ := consistent.placed
    exact ⟨turn.accounts consistent.accounts consistent.runs held, turn.runs consistent.runs held,
      (turn.custody consistent.runs held).placed placed, turn.guarded consistent.guarded held,
      turn.known consistent.known held turn.threads⟩

end

/-! ### The accounting -/

/-- The goroutine is outside `pushFrame`, `Release` and `disconnect`. -/
def Thread.between (thread : Thread limits) : Bool :=
  match thread.point with
  | .routine _ => true
  | _ => false

def System.queues (system : System limits) (s q : Nat) : Bool :=
  (system.sessions.lookup s).any fun session => session.out.contains q

def System.outstanding (system : System limits) (s : Nat) : Int :=
  total (fun q frame =>
    if frame.session == s &&
        (system.queues s q || system.received.contains q && frame.once != .finished) then
      (frame.bytes : Int)
    else 0) system.frames

theorem OutboundFrame.onSession_nonneg (frame : OutboundFrame) : 0 ≤ frame.onSession s := by
  unfold onSession
  split
  · split <;> omega
  · exact le_rfl

theorem OutboundFrame.onHub_nonneg (frame : OutboundFrame) : 0 ≤ frame.onHub := by
  unfold onHub
  split <;> omega

theorem Point.reserved_nonneg (point : Point limits) : 0 ≤ point.reserved s := by
  unfold Point.reserved
  cases point.reserves with
  | none => exact le_rfl
  | some =>
    rw [elim_some]
    split <;> omega

theorem queues_iff : system.queues s q = true ↔ q ∈ system.custody.queue s := by
  show (system.sessions.lookup s).any _ = true ↔ q ∈ (system.sessions.lookup s).elim [] Session.out
  cases system.sessions.lookup s <;> simp

section Quiet

variable (quiet : ∀ t thread, system.threads.lookup t = some thread → thread.between = true)

include quiet

theorem read_quiet {Held : Type} {view : Point limits → Option Held}
    (idle : ∀ rest, view (.routine rest) = none) (t : Nat) :
    read none (fun thread => view thread.point) system.threads t = none := by
  cases held : system.threads.lookup t with
  | none => exact read_of_absent held
  | some thread =>
    rw [read_of_lookup held]
    have between := quiet t thread held
    unfold Thread.between at between
    split at between
    next rest here =>
      rw [here]
      exact idle rest
    · cases between

theorem not_running_of_quiet (runs : Runs system) (found : system.frames.lookup q = some frame)
    (half : Bool) : frame.once ≠ .running t half := by
  intro once
  have inside := (runs q t half).mp (by rw [read_of_lookup found, once])
  rw [read_quiet quiet (fun _ => rfl) t] at inside
  cases inside

theorem reserved_of_quiet (s : Nat) : reserved system.threads s = 0 := by
  refine (total_congr_weight fun t thread held => ?_).trans (total_zero _)
  have nothing : read none (fun thread => thread.point.reserves) system.threads t = none :=
    read_quiet quiet (fun _ => rfl) t
  rw [read_of_lookup held] at nothing
  rw [Point.reserved, nothing]
  rfl

theorem charged_of_quiet (consistent : Consistent system) (s : Nat) :
    charged system.frames s = system.outstanding s := by
  obtain ⟨_, placed⟩ := consistent.placed
  refine total_congr_weight fun q frame found => ?_
  have live : system.custody.live q = frame.liveFor := read_of_lookup found
  unfold onSession
  cases once : frame.once with
  | fresh =>
    rw [liveFor, once] at live
    by_cases same : frame.session = s
    · obtain ⟨t, carries⟩ | queue | taken | ⟨t, drops⟩ := placed.of_live live
      · rw [show system.custody.carries t = none from read_quiet quiet (fun _ => rfl) t] at carries
        cases carries
      · simp [same, queues_iff.mpr (same ▸ queue)]
      · have received : q ∈ system.received := taken
        simp [same, received]
      · rw [show system.custody.drops t = none from read_quiet quiet (fun _ => rfl) t] at drops
        cases drops
    · simp [same]
  | running _ half => exact absurd once (not_running_of_quiet quiet consistent.runs found half)
  | finished =>
    have absent : system.queues s q = false := by
      refine Bool.eq_false_iff.mpr fun queue => ?_
      have alive := placed.liveQueued _ _ ((placed.queued _ _).mpr (queues_iff.mp queue))
      rw [live, liveFor, once] at alive
      cases alive
    simp [absent]

theorem chargedHub_of_quiet (consistent : Consistent system) :
    chargedHub system.frames = total (fun s _ => charged system.frames s) system.sessions := by
  unfold charged
  rw [total_total]
  refine total_congr_weight fun q frame found => ?_
  refine (total_single (consistent.known.frames q frame found) _).symm.trans ?_
  refine total_congr_weight fun s session _ => ?_
  unfold onSession onHub
  cases once : frame.once with
  | fresh => rfl
  | running _ half => exact absurd once (not_running_of_quiet quiet consistent.runs found half)
  | finished => rfl

end Quiet

/-- In every reachable state each counter is within its limits; whenever no goroutine is inside
`pushFrame`, `Release` or `disconnect`, each session's counter is the size of its frames queued, or
received and not released, and the hub's is their sum; and a closed session that no goroutine is
disconnecting has an empty queue. -/
theorem outbound_accounting
    (reached : Machine.Reaches System.step (fun _ _ => True) ({} : System limits) system) :
    (∀ s session, system.sessions.lookup s = some session →
      0 ≤ session.queuedBytes ∧ session.queuedBytes ≤ limits.sessionQueueBytes) ∧
    (0 ≤ system.queuedBytes ∧ system.queuedBytes ≤ limits.hubQueueBytes) ∧
    ((∀ t thread, system.threads.lookup t = some thread → thread.between = true) →
      (∀ s session, system.sessions.lookup s = some session →
        session.queuedBytes = system.outstanding s) ∧
      system.queuedBytes = total (fun _ session => session.queuedBytes) system.sessions) ∧
    ∀ s session, system.sessions.lookup s = some session → session.closed = true →
      (∀ t thread, system.threads.lookup t = some thread →
        thread.point.disconnects ≠ some s) → session.out = [] := by
  have consistent : Consistent system :=
    reached.invariant consistent_empty fun _ _ _ kept _ taken => kept.step taken
  refine ⟨fun s session found => ?_, ?_, fun quiet => ?_, fun s session found closed alone => ?_⟩
  · have charges : 0 ≤ charged system.frames s :=
      total_nonneg fun _ frame _ => frame.onSession_nonneg
    have reservations : 0 ≤ reserved system.threads s :=
      total_nonneg fun _ thread _ => thread.point.reserved_nonneg
    have sum := consistent.accounts.session s session found
    exact ⟨by omega, consistent.accounts.sessionLimit s session found⟩
  · have charges : 0 ≤ chargedHub system.frames :=
      total_nonneg fun _ frame _ => frame.onHub_nonneg
    exact ⟨consistent.accounts.hub ▸ charges, consistent.accounts.hubLimit⟩
  · have counter : ∀ s session, system.sessions.lookup s = some session →
        session.queuedBytes = charged system.frames s := fun s session found => by
      rw [consistent.accounts.session s session found, reserved_of_quiet quiet, add_zero]
    refine ⟨fun s session found => ?_, ?_⟩
    · rw [counter s session found, charged_of_quiet quiet consistent]
    · rw [consistent.accounts.hub, chargedHub_of_quiet quiet consistent]
      exact (total_congr_weight counter).symm
  · have there : system.sessionOf s = session := read_of_lookup found
    subst there
    cases once : (system.sessionOf s).once with
    | fresh => exact absurd once (consistent.guarded.begun s closed)
    | running t =>
      have disconnects := (consistent.guarded.once t s).mpr once
      cases held : system.threads.lookup t with
      | none =>
        rw [show system.pointOf t = .routine .done from read_of_absent held] at disconnects
        cases disconnects
      | some thread =>
        rw [show system.pointOf t = thread.point from read_of_lookup held] at disconnects
        exact absurd disconnects (alone t thread held)
    | finished => exact (consistent.guarded.finished s once).2

/-- A run of `push` to its end. -/
def pushRun (t s n fresh : Nat) : List Action :=
  .start t (.push s n) :: List.replicate 8 (.step t .plain fresh)

/-- A frame of five bytes is pushed: it is queued, and both counters count it. -/
theorem outbound_accounting_pushed :
    ∃ (system : System {}) (session : Session), system.sessions.lookup 0 = some session ∧
      session.out = [9] ∧ session.queuedBytes = 5 ∧ system.outstanding 0 = 5 ∧
      total (fun _ session => session.queuedBytes) system.sessions = system.queuedBytes := by
  have ran : (run (guarded System.step fun _ _ => True) ({} : System {})
      (.newSession 0 :: pushRun 1 0 5 9)).map (fun system =>
        (system.threads.entries.all fun entry => entry.2.between, system.sessions.lookup 0)) =
      some (true, some { queuedBytes := 5, out := [9] }) := by
    decide +kernel
  obtain ⟨system, ran, facts⟩ := map_eq_some_iff.mp ran
  obtain ⟨quiet, found⟩ := Prod.ext_iff.mp facts
  obtain ⟨_, _, accounting, _⟩ := outbound_accounting (reaches_run .refl ran)
  obtain ⟨counters, hub⟩ := accounting fun _ _ held =>
    List.all_eq_true.mp quiet _ (mem_of_lookup held)
  exact ⟨system, _, found, rfl, rfl, (counters 0 _ found).symm, hub.symm⟩

/-- Between the two subtractions of a `Release` no push is in progress, and the hub's counter is not
the sum of the sessions'. -/
theorem release_lowers_one_counter_first :
    ∃ system : System {}, Machine.Reaches System.step (fun _ _ => True) {} system ∧
      (∀ t thread, system.threads.lookup t = some thread → thread.operation.pushes = true →
        thread.finished = true) ∧
      system.queuedBytes ≠ total (fun _ session => session.queuedBytes) system.sessions := by
  have ran : (run (guarded System.step fun _ _ => True) ({} : System {})
      (.newSession 0 :: pushRun 1 0 5 9 ++ [.receive 0, .start 2 (.release 9),
        .step 2 .plain 0, .step 2 .plain 0])).map (fun system =>
        (system.threads.entries.all fun entry =>
          !entry.2.operation.pushes || entry.2.finished, system.queuedBytes,
          total (fun _ session => session.queuedBytes) system.sessions)) =
      some (true, 5, 0) := by
    decide +kernel
  obtain ⟨system, ran, facts⟩ := map_eq_some_iff.mp ran
  obtain ⟨over_, counters⟩ := Prod.ext_iff.mp facts
  obtain ⟨hub, sessions⟩ := Prod.ext_iff.mp counters
  refine ⟨system, reaches_run .refl ran, fun t thread held pushes => ?_, ?_⟩
  · have tested := List.all_eq_true.mp over_ _ (mem_of_lookup held)
    simpa [pushes] using tested
  · rw [show system.queuedBytes = 5 from hub, show total _ system.sessions = 0 from sessions]
    decide

end Ircthing.Hub.Outbound
