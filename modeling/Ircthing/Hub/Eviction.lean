/-
This file models how `pushLocked` relieves the global budget, as one step on the accounts of the
sessions, and says when it spares the session it pushes to.
-/

import Ircthing.Hub.OutboundDelivery
import Mathlib

namespace Ircthing.Hub.Eviction

open Library List Option AList Outbound

/-- What `pushLocked` knows of a registered session: the sizes of the frames in its queue, the bytes
of those its transport owns, and whether it was disconnected. -/
structure Account where
  out : List Nat := []
  held : Nat := 0
  closed : Bool := false
deriving DecidableEq

def Account.queuedBytes (account : Account) : Nat := account.out.sum + account.held

/-- The accounts of the registered sessions, and the bytes of the global budget in use. -/
structure Queues where
  sessions : Dict Nat Account := ∅
  queuedBytes : Int := 0

namespace Queues

variable (hub : Queues) (s : Nat)

/-- `disconnect`, which releases the frames of the queue once. -/
def disconnect : Queues :=
  match hub.sessions.lookup s with
  | none => hub
  | some session =>
    if session.closed then hub
    else
      { sessions := hub.sessions.insert s { session with out := [], closed := true }
        queuedBytes := hub.queuedBytes - session.out.sum }

variable (limits : QueueLimits)

def pushFrame (hub : Queues) (s n : Nat) : Queues × Bool :=
  match hub.sessions.lookup s with
  | none => (hub, true)
  | some session =>
    if ¬ Fits session.queuedBytes n limits.sessionQueueBytes then (hub.disconnect s, true)
    else if ¬ Fits hub.queuedBytes n limits.hubQueueBytes then (hub, false)
    else if session.closed then (hub, true)
    else if session.out.length < limits.sessionBuffer then
      ({ sessions := hub.sessions.insert s { session with out := session.out ++ [n] }
         queuedBytes := hub.queuedBytes + n }, true)
    else (hub.disconnect s, true)

def queued : Nat :=
  ((hub.sessions.lookup s).map Account.queuedBytes).getD 0

/-- The loop of `slowestLocked`. -/
def scan (hub : Queues) : List Nat → Option Nat → Nat → Option Nat
  | [], slowest, _ => slowest
  | s :: rest, slowest, most =>
    if most < hub.queued s then hub.scan rest (some s) (hub.queued s)
    else hub.scan rest slowest most

variable (order : Dict.Iteration Nat)

def slowestLocked (hub : Queues) : Option Nat :=
  hub.scan (order.order hub.sessions.keys) none 0

def pushLocked (hub : Queues) (s n : Nat) : Queues :=
  if (hub.pushFrame limits s n).2 then (hub.pushFrame limits s n).1
  else
    match hub.slowestLocked order with
    | none => hub.disconnect s
    | some v =>
      if v = s then hub.disconnect s
      else if ((hub.disconnect v).pushFrame limits s n).2 then
        ((hub.disconnect v).pushFrame limits s n).1
      else (hub.disconnect v).disconnect s

def connected : Bool :=
  (hub.sessions.lookup s).any fun session => !session.closed

/-- What happens to the sessions: a new one, a push, a transport that takes a frame, an eviction. -/
inductive Event
  | register (s : Nat)
  | push (order : Dict.Iteration Nat) (s n : Nat)
  | receive (s : Nat)
  | disconnect (s : Nat)

def step (hub : Queues) : Event → Queues
  | .register s => { hub with sessions := hub.sessions.insert s {} }
  | .push order s n => hub.pushLocked limits order s n
  | .receive s =>
    match hub.sessions.lookup s with
    | some { out := n :: rest, held, closed } =>
      { hub with sessions := hub.sessions.insert s { out := rest, held := held + n, closed } }
    | _ => hub
  | .disconnect s => hub.disconnect s

variable {limits : QueueLimits} {hub : Queues} {s n u v : Nat} {session other slow : Account}

/-! ### One call -/

section Push

variable (found : hub.sessions.lookup s = some session) (live : session.closed = false)
  (own : Fits session.queuedBytes n limits.sessionQueueBytes)
  (slot : session.out.length < limits.sessionBuffer)

include found own

include live slot

end Push

/-! ### The slowest session -/

def after (limits : QueueLimits) (events : List Event) : Queues :=
  events.foldl (step limits) {}

end Queues

end Ircthing.Hub.Eviction
