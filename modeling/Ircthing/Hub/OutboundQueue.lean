/-
This file models the outbound queues of the hub's sessions: the two byte counters a frame is
reserved on, the bounded channel it is sent to, and the releases that give its bytes back. One step
is one access to shared data: one atomic load, swap or add, one channel operation, one acquisition
or release of a lock.
-/

import Ircthing.Library.Dict
import Ircthing.Library.Machine

namespace Ircthing.Hub.Outbound

open Library

/-! ### Shared data -/

/-- How far the `once` of a frame's `Release` has come: a goroutine runs its body, and may already
have lowered the counter of the session. -/
inductive ReleaseOnce
  | fresh
  | running (thread : Nat) (halfway : Bool)
  | finished
deriving DecidableEq

structure OutboundFrame where
  session : Nat
  bytes : Nat
  once : ReleaseOnce := .fresh
deriving DecidableEq

/-- How far the `once` of a session's `disconnect` has come. -/
inductive DisconnectOnce
  | fresh
  | running (thread : Nat)
  | finished
deriving DecidableEq

/-- `Session`. The channel `out` holds frames by their addresses, and `queueMu` is held by a
goroutine or by none. -/
structure Session where
  queuedBytes : Int := 0
  out : List Nat := []
  closed : Bool := false
  once : DisconnectOnce := .fresh
  queueMu : Option Nat := none
deriving DecidableEq

/-- `sessionQueueBytes`, `hubQueueBytes` and `sessionBuffer`. -/
structure QueueLimits where
  sessionQueueBytes : Nat := 2 * 1024 * 1024
  hubQueueBytes : Nat := 8 * 1024 * 1024
  sessionBuffer : Nat := 64

/-- The tests of `reserveBytes` on the value it loaded. -/
def Fits (old : Int) (n limit : Nat) : Prop := 0 < n ∧ n ≤ limit ∧ old ≤ limit - n

instance (old : Int) (n limit : Nat) : Decidable (Fits old n limit) :=
  inferInstanceAs (Decidable (_ ∧ _))

/-! ### Routines -/

inductive Routine
  | done
  | pushFrame (s n : Nat) (after : Bool → Routine)
  | disconnect (s : Nat) (after : Routine)
  | lockHub (after : Routine)
  | unlockHub (after : Routine)
  | rangeSessions (after : List Nat → Routine)
  | scan (rest : List Nat) (slowest : Option Nat) (most : Int) (after : Option Nat → Routine)
  | unregister (s : Nat) (after : Routine)

def slowestLocked (after : Option Nat → Routine) : Routine :=
  .rangeSessions fun sessions => .scan sessions none 0 after

def pushLocked (s n : Nat) (after : Routine) : Routine :=
  .pushFrame s n fun dealt =>
    if dealt then after
    else slowestLocked fun slowest =>
      match slowest with
      | none => .disconnect s after
      | some v =>
        if v ≠ s then
          .disconnect v (.pushFrame s n fun dealt => if dealt then after else .disconnect s after)
        else .disconnect s after

/-- `push`, of the encoded envelope. -/
def push (s n : Nat) : Routine :=
  .pushFrame s n fun dealt =>
    if dealt then .done else .lockHub (pushLocked s n (.unlockHub .done))

/-- The loop of `broadcast` and `broadcastExcept`. -/
def pushEach (n : Nat) (except : Option Nat) : List Nat → Routine
  | [] => .unlockHub .done
  | s :: later =>
    if except = some s then pushEach n except later else pushLocked s n (pushEach n except later)

/-- `broadcast`, and `broadcastExcept` of a session. -/
def broadcast (n : Nat) (except : Option Nat) : Routine :=
  .lockHub (.rangeSessions fun sessions => pushEach n except sessions)

def close (s : Nat) : Routine :=
  .lockHub (.unregister s (.unlockHub (.disconnect s .done)))

/-! ### Points -/

/-- Who called `Release`: the transport or a `pushFrame` that found the session closed, a
`pushFrame` that found the queue full, or `disconnect`. -/
inductive Caller
  | returns (after : Routine)
  | full (s : Nat) (after : Routine)
  | drain (s : Nat) (after : Routine)

inductive Point (limits : QueueLimits)
  | routine (rest : Routine)
  -- `pushFrame` and `reserveBytes`
  | swapSession (s n : Nat) (old : Int) (fits : Fits old n limits.sessionQueueBytes)
      (after : Bool → Routine)
  | loadHub (s n : Nat) (after : Bool → Routine)
  | swapHub (s n : Nat) (old : Int) (fits : Fits old n limits.hubQueueBytes)
      (after : Bool → Routine)
  | giveBack (s n : Nat) (after : Routine)
  | lockQueue (s q : Nat) (after : Routine)
  | checkClosed (s q : Nat) (after : Routine)
  | unlockRefused (s q : Nat) (after : Routine)
  | send (s q : Nat) (after : Routine)
  | unlockQueue (s : Nat) (after : Routine)
  -- `Release`
  | release (q : Nat) (caller : Caller)
  | subtractSession (q : Nat) (caller : Caller)
  | subtractHub (q : Nat) (caller : Caller)
  -- `disconnect`
  | lockClosing (s : Nat) (after : Routine)
  | setClosed (s : Nat) (after : Routine)
  | drain (s : Nat) (after : Routine)
  | unlockClosing (s : Nat) (after : Routine)
  | finish (s : Nat) (after : Routine)

/-- Where `Release` returns to. -/
def Caller.resume {limits : QueueLimits} : Caller → Point limits
  | .returns after => .routine after
  | .full s after => .unlockQueue s (.disconnect s after)
  | .drain s after => .drain s after

variable {limits : QueueLimits}

/-! ### Goroutines -/

inductive Operation
  | push (s n : Nat)
  | broadcast (n : Nat) (except : Option Nat)
  | release (q : Nat)
  | close (s : Nat)
deriving DecidableEq

def Operation.point : Operation → Point limits
  | .push s n => .routine (Outbound.push s n)
  | .broadcast n except => .routine (Outbound.broadcast n except)
  | .release q => .release q (.returns .done)
  | .close s => .routine (Outbound.close s)

def Operation.pushes : Operation → Bool
  | .push .. | .broadcast .. => true
  | .release _ | .close _ => false

def Operation.allowed (received : List Nat) : Operation → Bool
  | .release q => received.contains q
  | .push .. | .broadcast .. | .close _ => true

structure Thread (limits : QueueLimits) where
  operation : Operation
  point : Point limits

def Thread.finished (thread : Thread limits) : Bool :=
  match thread.point with
  | .routine .done => true
  | _ => false

/-- The hub and the goroutines. `sessions` holds every session that was made, `registered` the keys
of the hub's map, `received` the frames taken from the queues. -/
structure System (limits : QueueLimits) where
  queuedBytes : Int := 0
  sessions : Dict Nat Session := ∅
  frames : Dict Nat OutboundFrame := ∅
  registered : List Nat := []
  received : List Nat := []
  mu : Option Nat := none
  threads : Dict Nat (Thread limits) := ∅

namespace System

variable (system : System limits)

def setSession (s : Nat) (session : Session) : System limits :=
  { system with sessions := system.sessions.insert s session }

def setFrame (q : Nat) (frame : OutboundFrame) : System limits :=
  { system with frames := system.frames.insert q frame }

def setThread (t : Nat) (thread : Thread limits) : System limits :=
  { system with threads := system.threads.insert t thread }

/-- One step of a routine, `none` where the goroutine has to wait. -/
def call (t : Nat) (order : Dict.Iteration Nat) : Routine → Option (System limits × Point limits)
  | .done => none
  | .pushFrame s n after =>
    (system.sessions.lookup s).bind fun session =>
      if fits : Fits session.queuedBytes n limits.sessionQueueBytes then
        some (system, .swapSession s n session.queuedBytes fits after)
      else some (system, .routine (.disconnect s (after true)))
  | .disconnect s after =>
    (system.sessions.lookup s).bind fun session =>
      match session.once with
      | .fresh =>
        some (system.setSession s { session with once := .running t }, .lockClosing s after)
      | .running _ => none
      | .finished => some (system, .routine after)
  | .lockHub after =>
    if system.mu = none then some ({ system with mu := some t }, .routine after) else none
  | .unlockHub after => some ({ system with mu := none }, .routine after)
  | .rangeSessions after => some (system, .routine (after (order.order system.registered)))
  | .scan [] slowest _ after => some (system, .routine (after slowest))
  | .scan (s :: rest) slowest most after =>
    (system.sessions.lookup s).bind fun session =>
      if session.queuedBytes > most then
        some (system, .routine (.scan rest (some s) session.queuedBytes after))
      else some (system, .routine (.scan rest slowest most after))
  | .unregister s after =>
    some ({ system with registered := system.registered.filter (· != s) }, .routine after)

/-- One access to shared data, `none` where the goroutine has to wait. `order` is how a map is
ranged, `fresh` the address of a new frame. -/
def access (t : Nat) (order : Dict.Iteration Nat) (fresh : Nat) :
    Point limits → Option (System limits × Point limits)
  | .routine rest => system.call t order rest
  | .swapSession s n old _ after =>
    (system.sessions.lookup s).bind fun session =>
      if session.queuedBytes = old then
        some (system.setSession s { session with queuedBytes := old + n }, .loadHub s n after)
      else some (system, .routine (.pushFrame s n after))
  | .loadHub s n after =>
    if fits : Fits system.queuedBytes n limits.hubQueueBytes then
      some (system, .swapHub s n system.queuedBytes fits after)
    else some (system, .giveBack s n (after false))
  | .swapHub s n old _ after =>
    if system.queuedBytes = old then
      if system.frames.lookup fresh = none then
        some ({ system with queuedBytes := old + n }.setFrame fresh { session := s, bytes := n },
          .lockQueue s fresh (after true))
      else none
    else some (system, .loadHub s n after)
  | .giveBack s n after =>
    (system.sessions.lookup s).bind fun session =>
      some (system.setSession s { session with queuedBytes := session.queuedBytes - n },
        .routine after)
  | .lockQueue s q after =>
    (system.sessions.lookup s).bind fun session =>
      if session.queueMu = none then
        some (system.setSession s { session with queueMu := some t }, .checkClosed s q after)
      else none
  | .checkClosed s q after =>
    (system.sessions.lookup s).bind fun session =>
      if session.closed then some (system, .unlockRefused s q after)
      else some (system, .send s q after)
  | .unlockRefused s q after =>
    (system.sessions.lookup s).bind fun session =>
      some (system.setSession s { session with queueMu := none }, .release q (.returns after))
  | .send s q after =>
    (system.sessions.lookup s).bind fun session =>
      if session.out.length < limits.sessionBuffer then
        some (system.setSession s { session with out := session.out ++ [q] }, .unlockQueue s after)
      else some (system, .release q (.full s after))
  | .unlockQueue s after =>
    (system.sessions.lookup s).bind fun session =>
      some (system.setSession s { session with queueMu := none }, .routine after)
  | .release q caller =>
    (system.frames.lookup q).bind fun frame =>
      match frame.once with
      | .fresh =>
        some (system.setFrame q { frame with once := .running t false }, .subtractSession q caller)
      | .running .. => none
      | .finished => some (system, caller.resume)
  | .subtractSession q caller =>
    (system.frames.lookup q).bind fun frame =>
      (system.sessions.lookup frame.session).bind fun session =>
        some ((system.setSession frame.session
            { session with queuedBytes := session.queuedBytes - frame.bytes }).setFrame q
              { frame with once := .running t true },
          .subtractHub q caller)
  | .subtractHub q caller =>
    (system.frames.lookup q).bind fun frame =>
      some ({ system with queuedBytes := system.queuedBytes - frame.bytes }.setFrame q
        { frame with once := .finished }, caller.resume)
  | .lockClosing s after =>
    (system.sessions.lookup s).bind fun session =>
      if session.queueMu = none then
        some (system.setSession s { session with queueMu := some t }, .setClosed s after)
      else none
  | .setClosed s after =>
    (system.sessions.lookup s).bind fun session =>
      some (system.setSession s { session with closed := true }, .drain s after)
  | .drain s after =>
    (system.sessions.lookup s).bind fun session =>
      match session.out with
      | q :: rest =>
        some (system.setSession s { session with out := rest }, .release q (.drain s after))
      | [] => some (system, .unlockClosing s after)
  | .unlockClosing s after =>
    (system.sessions.lookup s).bind fun session =>
      some (system.setSession s { session with queueMu := none }, .finish s after)
  | .finish s after =>
    (system.sessions.lookup s).bind fun session =>
      some (system.setSession s { session with once := .finished }, .routine after)

end System

def maxHubSessions : Nat := 64

/-- What can happen next: a session is made, an operation starts, a transport takes a frame, a
goroutine makes a step. -/
inductive Action
  | newSession (s : Nat)
  | start (t : Nat) (operation : Operation)
  | receive (s : Nat)
  | step (t : Nat) (order : Dict.Iteration Nat) (fresh : Nat)

def System.step (system : System limits) : Action → Option (System limits)
  | .newSession s =>
    if system.mu = none ∧ system.sessions.lookup s = none then
      if system.registered.length ≥ maxHubSessions then some system
      else some { system.setSession s {} with registered := system.registered ++ [s] }
    else none
  | .start t operation =>
    if system.threads.lookup t = none ∧ operation.allowed system.received then
      some (system.setThread t { operation, point := operation.point })
    else none
  | .receive s =>
    (system.sessions.lookup s).bind fun session =>
      match session.out with
      | q :: rest =>
        some { system.setSession s { session with out := rest } with
          received := system.received ++ [q] }
      | [] => none
  | .step t order fresh =>
    (system.threads.lookup t).bind fun thread =>
      (system.access t order fresh thread.point).map fun (next, point) =>
        next.setThread t { thread with point }

end Ircthing.Hub.Outbound
