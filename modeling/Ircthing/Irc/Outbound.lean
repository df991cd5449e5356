/-
This file models the way of a message to the wire, one channel operation at a time: the send queue
all connections of a network share, the two lanes of each connection, and the writer that takes from
the three. When several cases are ready, any of them may be taken, and between two selects the other
goroutines run.
-/

import Ircthing.Irc.Framing
import Ircthing.Library.Machine

namespace Ircthing.Irc

open List Option

variable {index : Nat}

/-! ### Messages on their way -/

inductive Origin
  /-- The answer to a PING. -/
  | urgent
  /-- A line of the handshake, or one the manager answers a server line with. -/
  | internal
  /-- A JOIN of the rejoin list. -/
  | rejoin
  /-- A message `sendAll` accepted while the connection with this number was registered. -/
  | accepted (connection : Nat)
deriving DecidableEq

structure Queued where
  origin : Origin
  message : IrcMessage
deriving DecidableEq

namespace Queued

def IsRejoin (item : Queued) : Prop := item.origin = .rejoin

def IsAccepted (item : Queued) : Prop := ∃ connection, item.origin = .accepted connection

end Queued

/-! ### The writer of a connection -/

inductive Writer
  /-- At the first select of `nextOutbound`. -/
  | pollUrgent
  /-- At the second select. -/
  | pollInternal
  /-- Behind the second select, the third not yet entered. -/
  | choosing
  /-- Parked in the third select. -/
  | waiting
  /-- In `writeOne`. -/
  | writing (item : Queued)
  /-- Behind the loop. -/
  | stopped
deriving DecidableEq

variable {writer : Writer}

inductive Case
  | done
  | urgent
  | internal
  | out
deriving DecidableEq

variable {case : Case}

namespace Writer

def cases : Writer → List Case
  | .pollUrgent => [.done, .urgent]
  | .pollInternal => [.done, .urgent, .internal]
  | .choosing => [.done, .urgent, .internal, .out]
  | _ => []

theorem choosing_of_mem_cases (offered : Case.out ∈ writer.cases) : writer = .choosing := by
  cases writer with
  | choosing => rfl
  | _ => simp [cases] at offered

def unready : Writer → Option Writer
  | .pollUrgent => some .pollInternal
  | .pollInternal => some .choosing
  | .choosing => some .waiting
  | _ => none

end Writer

/-- A connection: its lanes, its context and its writer, with what the writer has taken from a
lane and what it has written so far. -/
structure Link where
  room : Nat
  urgent : List Queued := []
  internal : List Queued := []
  cancelled : Bool := false
  writer : Writer := .pollUrgent
  taken : List Queued := []
  wire : List Queued := []
deriving DecidableEq

namespace Link

variable (link : Link)

structure Laned : Prop where
  urgent : ∀ item ∈ link.urgent, item.origin = .urgent
  internal : ∀ item ∈ link.internal, item.origin = .internal ∨ item.origin = .rejoin

variable (item : Queued)

def take : Link :=
  { link with writer := .writing item, taken := link.taken ++ [item] }

def cancel : Link :=
  { link with
    cancelled := true
    writer := if link.writer = .waiting then .stopped else link.writer }

def offer (room : Nat) (lane : List Queued) (fill : List Queued → Link)
    (item : Queued) : Option Link :=
  if link.writer = .waiting then some (link.take item)
  else if lane.length < room then some (fill (lane ++ [item]))
  else none

/-- `send`: the internal lane, made for the handshake and the whole rejoin list. -/
def send : Option Link :=
  link.offer link.room link.internal (fun lane => { link with internal := lane }) item

def sendUrgent : Option Link :=
  link.offer 8 link.urgent (fun lane => { link with urgent := lane }) item

variable (out : List Queued)

def ready : Case → Bool
  | .done => link.cancelled
  | .urgent => !link.urgent.isEmpty
  | .internal => !link.internal.isEmpty
  | .out => !out.isEmpty

def receive : Case → Option (Link × List Queued)
  | .done => if link.cancelled then some ({ link with writer := .stopped }, out) else none
  | .urgent =>
    match link.urgent with
    | [] => none
    | item :: rest => some ({ link.take item with urgent := rest }, out)
  | .internal =>
    match link.internal with
    | [] => none
    | item :: rest => some ({ link.take item with internal := rest }, out)
  | .out =>
    match out with
    | [] => none
    | item :: rest => some (link.take item, rest)

def select (case : Case) : Option (Link × List Queued) :=
  if link.writer.cases.contains case then link.receive out case else none

def pass : Option Link :=
  if link.writer.cases.any (link.ready out) then none
  else link.writer.unready.map fun writer => { link with writer := writer }

/-- `writeOne` puts the line on the wire. -/
def write : Option Link :=
  match link.writer with
  | .writing item =>
    if checkFraming item.message = .ok () then
      some { link with writer := .pollUrgent, wire := link.wire ++ [item] }
    else none
  | _ => none

/-- `writeOne` drops a line that has become too long. -/
def drop : Option Link :=
  match link.writer with
  | .writing item =>
    if checkFraming item.message = .ok () then some { link with writer := .pollUrgent } else none
  | _ => none

/-- `writeOne` fails: the context has ended, the line is not safe or the socket is gone. -/
def fail : Option Link :=
  match link.writer with
  | .writing _ => some { link with writer := .stopped, cancelled := true }
  | _ => none

end Link

/-! ### The manager -/

/-- Where the goroutine stands that runs `runOnce`. -/
inductive Progress
  /-- Between two connections. -/
  | idle
  /-- In `drainSendQueue`, with the lock. -/
  | draining
  | dialing
  /-- In `register`, with the rejoin list taken before. -/
  | registering (rejoins : List IrcMessage)
  /-- Behind `register`, with the JOINs still to be enqueued. -/
  | rejoining (rejoins : List IrcMessage)
  /-- In `serveLoop`, registered. -/
  | serving
  /-- On the way out, no longer registered. -/
  | closing
deriving DecidableEq

variable {phase : Progress}

/-- The outbound side of a `Manager`: the queue with what the sender that holds the lock has still
to enqueue, and the connections, the current one last. -/
structure Outbound where
  capacity : Nat
  out : List Queued := []
  sending : List Queued := []
  registered : Bool := false
  stopping : Bool := false
  phase : Progress := .idle
  links : List Link := []
deriving DecidableEq

/-- The errors of `sendAll`. -/
inductive SendError
  | unsafeFraming
  | notConnected
  | sendQueueFull
deriving DecidableEq

namespace Outbound

variable (o : Outbound)

def current : Nat := o.links.length - 1

/-- Nobody holds `sendMu`. -/
def Unlocked : Prop := o.sending = [] ∧ o.phase ≠ .draining

instance (o : Outbound) : Decidable o.Unlocked := inferInstanceAs (Decidable (_ ∧ _))

def onLink (index : Nat) (change : Link → Option Link) : Option Outbound :=
  (o.links[index]?).bind fun link =>
    (change link).map fun link => { o with links := o.links.set index link }

def sendAll (messages : List IrcMessage) : Except SendError Outbound := do
  if messages.any fun message => checkFraming message ≠ .ok () then throw .unsafeFraming
  if !o.registered then throw .notConnected
  if o.capacity - o.out.length < messages.length then throw .sendQueueFull
  pure { o with sending := messages.map fun message => ⟨.accepted o.current, message⟩ }

/-- `m.out <- msg`, for the next message of the sender that holds the lock. -/
def push : Option Outbound :=
  match o.sending with
  | [] => none
  | item :: rest =>
    match o.links.findIdx? fun link => link.writer = .waiting with
    | some index =>
      ({ o with sending := rest } : Outbound).onLink index fun link => some (link.take item)
    | none =>
      if o.out.length < o.capacity then
        some { o with out := o.out ++ [item], sending := rest }
      else none

inductive Action
  /-- `runOnce` is called and takes the lock for the drain. -/
  | start
  /-- One turn of the loop of `drainSendQueue`. -/
  | drain
  | dialFails
  /-- The socket is there, and the writer is started. -/
  | connect (rejoins : List IrcMessage)
  /-- A line for the internal lane, of `register` or of `serveLoop`. -/
  | send (message : IrcMessage)
  | registerFails
  | registerDone
  /-- The next JOIN of the rejoin list is enqueued. -/
  | rejoin
  /-- The context ends before the rejoin list is enqueued. -/
  | abandon
  /-- `setRegistered(true)`. -/
  | setRegistered
  | sendUrgent (message : IrcMessage)
  /-- `serveLoop` has returned: `setRegistered(false)`. -/
  | leave
  /-- The deferred `cancel(nil)`, and the return of `runOnce`. -/
  | close
  /-- The context of the network ends. -/
  | stop
  | select (index : Nat) (case : Case)
  | pass (index : Nat)
  | write (index : Nat)
  | drop (index : Nat)
  | fail (index : Nat)
  /-- `sendAll` takes the lock and accepts. -/
  | accept (messages : List IrcMessage)
  /-- `sendAll` enqueues the next message. -/
  | push
deriving DecidableEq

variable {action : Action}

def step : Action → Option Outbound
  | .start =>
    if o.phase = .idle ∧ o.stopping = false ∧ o.Unlocked then some { o with phase := .draining }
    else none
  | .drain =>
    if o.phase = .draining then
      some (if o.out = [] then { o with phase := .dialing } else { o with out := o.out.tail })
    else none
  | .dialFails => if o.phase = .dialing then some { o with phase := .idle } else none
  | .connect rejoins =>
    if o.phase = .dialing then
      some { o with
        phase := .registering rejoins
        links := o.links ++ [{ room := 16 + rejoins.length }] }
    else none
  | .send message =>
    match o.phase with
    | .registering _ | .serving => o.onLink o.current (·.send ⟨.internal, message⟩)
    | _ => none
  | .registerFails =>
    match o.phase with
    | .registering _ => some { o with phase := .closing }
    | _ => none
  | .registerDone =>
    match o.phase with
    | .registering rejoins => some { o with phase := .rejoining rejoins }
    | _ => none
  | .rejoin =>
    match o.phase with
    | .rejoining (join :: rest) =>
      ({ o with phase := .rejoining rest } : Outbound).onLink o.current (·.send ⟨.rejoin, join⟩)
    | _ => none
  | .abandon =>
    match o.phase with
    | .rejoining (_ :: _) =>
      ({ o with phase := .closing } : Outbound).onLink o.current fun link =>
        if link.cancelled then some link else none
    | _ => none
  | .setRegistered =>
    if o.phase = .rejoining [] ∧ o.Unlocked then
      some { o with phase := .serving, registered := true }
    else none
  | .sendUrgent message =>
    if o.phase = .serving then o.onLink o.current (·.sendUrgent ⟨.urgent, message⟩) else none
  | .leave =>
    if o.phase = .serving ∧ o.Unlocked then some { o with phase := .closing, registered := false }
    else none
  | .close =>
    if o.phase = .closing then
      ({ o with phase := .idle } : Outbound).onLink o.current fun link => some link.cancel
    else none
  | .stop => some { o with stopping := true, links := o.links.map Link.cancel }
  | .select index case =>
    (o.links[index]?).bind fun link =>
      (link.select o.out case).map fun received =>
        { o with links := o.links.set index received.1, out := received.2 }
  | .pass index => o.onLink index (·.pass o.out)
  | .write index => o.onLink index Link.write
  | .drop index => o.onLink index Link.drop
  | .fail index => o.onLink index Link.fail
  | .accept messages => if o.Unlocked then (o.sendAll messages).toOption else none
  | .push => o.push

variable {o next : Outbound}

theorem onLink_eq_some {change : Link → Option Link} (changed : o.onLink index change = some next) :
    ∃ link link', o.links[index]? = some link ∧ change link = some link' ∧
      next = { o with links := o.links.set index link' } := by
  obtain ⟨link, located, mapped⟩ := bind_eq_some_iff.mp changed
  obtain ⟨link', moved, same⟩ := map_eq_some_iff.mp mapped
  exact ⟨link, link', located, moved, same.symm⟩

theorem sendAll_eq_ok {messages : List IrcMessage} (accepted : o.sendAll messages = .ok next) :
    o.registered = true ∧
      next = { o with sending := messages.map fun message => ⟨.accepted o.current, message⟩ } := by
  rw [sendAll] at accepted
  by_cases unsafeOne : messages.any fun message => checkFraming message ≠ .ok ()
  · rw [if_pos unsafeOne] at accepted
    cases accepted
  · rw [if_neg unsafeOne] at accepted
    cases connected : o.registered with
    | false =>
      rw [connected] at accepted
      cases accepted
    | true =>
      rw [connected] at accepted
      by_cases full : o.capacity - o.out.length < messages.length
      · rw [if_pos full] at accepted
        cases accepted
      · rw [if_neg full] at accepted
        cases accepted
        exact ⟨rfl, rfl⟩

theorem push_eq_some (pushed : o.push = some next) :
    ∃ item rest, o.sending = item :: rest ∧
      ((∃ index link, o.links[index]? = some link ∧ link.writer = .waiting ∧
          next = { o with sending := rest, links := o.links.set index (link.take item) }) ∨
        next = { o with sending := rest, out := o.out ++ [item] }) := by
  rw [push] at pushed
  cases held : o.sending with
  | nil =>
    rw [held] at pushed
    cases pushed
  | cons item rest =>
    rw [held] at pushed
    refine ⟨item, rest, rfl, ?_⟩
    cases found : o.links.findIdx? fun link => link.writer = .waiting with
    | some index =>
      simp only [found] at pushed
      obtain ⟨link, _, located, moved, same⟩ := onLink_eq_some pushed
      cases moved
      have asleep := findIdx?_eq_some_iff_getElem.mp found
      obtain ⟨inside, asleep, _⟩ := asleep
      refine .inl ⟨index, link, located, ?_, same⟩
      rw [getElem?_eq_getElem inside, some_inj] at located
      rw [← located]
      exact of_decide_eq_true asleep
    | none =>
      simp only [found] at pushed
      obtain ⟨_, same⟩ := ite_none_right_eq_some.mp pushed
      exact .inr (some_inj.mp same).symm

/-! ### Facts about every connection -/

def Each (o : Outbound) (property : Nat → Link → Prop) : Prop :=
  ∀ index link, o.links[index]? = some link → property index link

theorem each_set {links : List Link} {property : Nat → Link → Prop} {changed : Link}
    (each : ∀ index link, links[index]? = some link → property index link)
    (good : property index changed) :
    ∀ other link, (links.set index changed)[other]? = some link → property other link := by
  intro other link located
  rw [getElem?_set] at located
  split at located
  · next same =>
    obtain ⟨_, placed⟩ := ite_none_right_eq_some.mp located
    rw [← same, ← some_inj.mp placed]
    exact good
  · exact each other link located

@[simp] theorem current_set (o : Outbound) (index : Nat) (link : Link) :
    Outbound.current { o with links := o.links.set index link } = o.current := by
  simp [current]

end Outbound

/-! ### Where the messages can be -/

namespace Progress

def fresh : Progress → Bool
  | .dialing | .registering _ | .rejoining _ => true
  | _ => false

def joining : Progress → Bool
  | .registering _ | .rejoining _ => true
  | _ => false

/-- The last connection is still the current one, its context not yet ended by `runOnce`. -/
def live : Progress → Bool
  | .registering _ | .rejoining _ | .serving | .closing => true
  | _ => false

end Progress

namespace Outbound

structure Enters (o : Outbound) (phase : Progress) (registered : Bool) : Prop where
  announced : registered = true → phase = .serving ∨ registered = o.registered ∧ o.phase ≠ .serving
  sent : o.sending = [] ∨ o.phase ≠ .serving
  drained : phase.fresh = true → o.out = [] ∨ o.phase.fresh = true
  joining : phase.joining = true → o.phase.joining = true
  live : phase.live = o.phase.live

inductive LinkStep (out : List Queued) : Link → Link → List Queued → Prop
  | send {link link' : Link} (message : IrcMessage) :
      link.send ⟨.internal, message⟩ = some link' → LinkStep out link link' out
  | sendUrgent {link link' : Link} (message : IrcMessage) :
      link.sendUrgent ⟨.urgent, message⟩ = some link' → LinkStep out link link' out
  | select {link link' : Link} {rest : List Queued} (case : Case) :
      link.select out case = some (link', rest) → LinkStep out link link' rest
  | pass {link link' : Link} : link.pass out = some link' → LinkStep out link link' out
  | write {link link' : Link} : link.write = some link' → LinkStep out link link' out
  | drop {link link' : Link} : link.drop = some link' → LinkStep out link link' out
  | fail {link link' : Link} : link.fail = some link' → LinkStep out link link' out

/-- What a step can do to the outbound side. -/
inductive StepChange (o : Outbound) : Action → Outbound → Prop
  | enter {action : Action} {phase : Progress} {registered : Bool} : o.Enters phase registered →
      StepChange o action { o with phase := phase, registered := registered }
  | drain {action : Action} : StepChange o action { o with out := o.out.tail }
  | connect {action : Action} {rejoins : List IrcMessage} {link : Link} : o.phase = .dialing →
      link.cancelled = false → link.urgent = [] → link.internal = [] → link.taken = [] →
      link.wire = [] → link.writer = .pollUrgent →
      StepChange o action { o with phase := .registering rejoins, links := o.links ++ [link] }
  | move {action : Action} {index : Nat} {link link' : Link} {rest : List Queued} :
      o.links[index]? = some link → LinkStep o.out link link' rest →
      StepChange o action { o with out := rest, links := o.links.set index link' }
  | rejoin {join : IrcMessage} {rest : List IrcMessage} {link link' : Link} :
      o.phase = .rejoining (join :: rest) → o.links[o.current]? = some link →
      link.send ⟨.rejoin, join⟩ = some link' →
      StepChange o .rejoin { o with phase := .rejoining rest, links := o.links.set o.current link' }
  | close {action : Action} {link : Link} : o.phase = .closing →
      o.links[o.current]? = some link →
      StepChange o action { o with phase := .idle, links := o.links.set o.current link.cancel }
  | stop {action : Action} :
      StepChange o action { o with stopping := true, links := o.links.map Link.cancel }
  | accept {messages : List IrcMessage} : o.registered = true →
      StepChange o (.accept messages)
        { o with sending := messages.map fun message => ⟨.accepted o.current, message⟩ }
  | handOver {action : Action} {index : Nat} {link : Link} {item : Queued} {rest : List Queued} :
      o.sending = item :: rest → o.links[index]? = some link → link.writer = .waiting →
      StepChange o action { o with sending := rest, links := o.links.set index (link.take item) }
  | queue {action : Action} {item : Queued} {rest : List Queued} : o.sending = item :: rest →
      StepChange o action { o with sending := rest, out := o.out ++ [item] }

/-- Messages are accepted only while registered, belong to the current connection and are gone when
the next one is dialed, and the contexts of earlier connections have ended. -/
structure Phased (o : Outbound) : Prop where
  registered : o.registered = true → o.phase = .serving
  sending : o.sending ≠ [] → o.phase = .serving
  fresh : o.phase.fresh = true → o.out = []
  retired : o.Each fun index link =>
    (o.phase.live = true → index ≠ o.current) → link.cancelled = true
  parked : o.Each fun _ link => link.cancelled = true → link.writer ≠ .waiting
  laned : o.Each fun _ link => link.Laned
  marked : ∀ item ∈ o.out ++ o.sending, item.origin = .accepted o.current

variable {o next : Outbound}

section

variable (phased : o.Phased)
include phased

theorem Phased.sending_eq_nil (elsewhere : o.phase ≠ .serving) :
    o.sending = [] := by
  by_contra some
  exact elsewhere (phased.sending some)

theorem Phased.unregistered (elsewhere : o.phase ≠ .serving) :
    o.registered = false := by
  by_contra some
  exact elsewhere (phased.registered (Bool.eq_true_of_not_eq_false some))

theorem Phased.enter {registered : Bool} (entry : o.Enters phase registered) :
    ({ o with phase := phase, registered := registered } : Outbound).Phased where
  registered announced := by
    rcases entry.announced announced with serving | ⟨same, elsewhere⟩
    · exact serving
    · rw [same, phased.unregistered elsewhere] at announced
      cases announced
  sending some := absurd (entry.sent.elim id phased.sending_eq_nil) some
  fresh early := (entry.drained early).elim id phased.fresh
  retired index link located := by
    rw [entry.live]
    exact phased.retired index link located
  parked := phased.parked
  laned := phased.laned
  marked := phased.marked

theorem Phased.set {link link' : Link} (located : o.links[index]? = some link)
    (ended : link.cancelled = true → link'.cancelled = true)
    (awake : link'.cancelled = true → link'.writer ≠ .waiting) (lanes : link'.Laned) :
    ({ o with links := o.links.set index link' } : Outbound).Phased where
  registered := phased.registered
  sending := phased.sending
  fresh := phased.fresh
  retired := by
    rw [Each]
    simp only [current_set]
    exact each_set phased.retired fun past => ended (phased.retired index link located past)
  parked := each_set phased.parked awake
  laned := each_set phased.laned lanes
  marked := by
    simp only [current_set]
    exact phased.marked

theorem Phased.shrink {out sending : List Queued}
    (fewer : ∀ item ∈ out, item ∈ o.out) (rest : ∀ item ∈ sending, item ∈ o.sending) :
    ({ o with out := out, sending := sending } : Outbound).Phased where
  registered := phased.registered
  sending some := by
    refine phased.sending fun none =>
      some (eq_nil_iff_forall_not_mem.mpr fun item member => ?_)
    rw [none] at rest
    exact not_mem_nil (rest item member)
  fresh early := by
    refine eq_nil_iff_forall_not_mem.mpr fun item member => ?_
    rw [phased.fresh early] at fewer
    exact not_mem_nil (fewer item member)
  retired := phased.retired
  parked := phased.parked
  laned := phased.laned
  marked item member := by
    rcases mem_append.mp member with queued | held
    · exact phased.marked item (mem_append_left _ (fewer item queued))
    · exact phased.marked item (mem_append_right _ (rest item held))

end

end Outbound

/-! ### What the operations do to the context of a connection -/

namespace Link

variable {link link' : Link} {out rest : List Queued}

theorem offer_eq_some {room : Nat} {lane : List Queued} {fill : List Queued → Link} {item : Queued}
    (offered : link.offer room lane fill item = some link') :
    (link.writer = .waiting ∧ link' = link.take item) ∨
      (link.writer ≠ .waiting ∧ link' = fill (lane ++ [item])) := by
  rw [offer] at offered
  by_cases asleep : link.writer = .waiting
  · rw [if_pos asleep] at offered
    exact .inl ⟨asleep, (some_inj.mp offered).symm⟩
  · rw [if_neg asleep] at offered
    obtain ⟨_, same⟩ := ite_none_right_eq_some.mp offered
    exact .inr ⟨asleep, (some_inj.mp same).symm⟩

theorem receive_eq_some (received : link.receive out case = some (link', rest)) :
    (case = .done ∧ link.cancelled = true ∧ link' = { link with writer := .stopped } ∧
      rest = out) ∨
    (case = .urgent ∧ ∃ item later, link.urgent = item :: later ∧
      link' = { link.take item with urgent := later } ∧ rest = out) ∨
    (case = .internal ∧ ∃ item later, link.internal = item :: later ∧
      link' = { link.take item with internal := later } ∧ rest = out) ∨
    (case = .out ∧ ∃ item, out = item :: rest ∧ link' = link.take item) := by
  cases case with
  | done =>
    obtain ⟨ended, same⟩ := ite_none_right_eq_some.mp received
    cases same
    exact .inl ⟨rfl, ended, rfl, rfl⟩
  | urgent =>
    rw [receive] at received
    cases lane : link.urgent with
    | nil => rw [lane] at received; cases received
    | cons item later =>
      rw [lane] at received
      cases received
      exact .inr (.inl ⟨rfl, item, later, rfl, rfl, rfl⟩)
  | internal =>
    rw [receive] at received
    cases lane : link.internal with
    | nil => rw [lane] at received; cases received
    | cons item later =>
      rw [lane] at received
      cases received
      exact .inr (.inr (.inl ⟨rfl, item, later, rfl, rfl, rfl⟩))
  | out =>
    cases out with
    | nil => cases received
    | cons item =>
      cases received
      exact .inr (.inr (.inr ⟨rfl, item, rfl, rfl⟩))

theorem pass_eq_some (passed : link.pass out = some link') :
    link.cancelled = false ∧
      ((link.writer = .pollUrgent ∧ link' = { link with writer := .pollInternal }) ∨
        (link.internal = [] ∧ link.writer = .pollInternal ∧
          link' = { link with writer := .choosing }) ∨
        (link.internal = [] ∧ link.writer = .choosing ∧
          link' = { link with writer := .waiting })) := by
  rw [pass] at passed
  split at passed
  · cases passed
  · next unready =>
    rw [Bool.not_eq_true, List.any_eq_false] at unready
    cases stage : link.writer with
    | pollUrgent =>
      rw [stage] at passed unready
      cases passed
      have live : ¬ link.cancelled = true := unready .done (by decide)
      exact ⟨Bool.eq_false_iff.mpr live, .inl ⟨rfl, rfl⟩⟩
    | pollInternal =>
      rw [stage] at passed unready
      cases passed
      have live : ¬ link.cancelled = true := unready .done (by decide)
      have empty : ¬ (!link.internal.isEmpty) = true := unready .internal (by decide)
      exact ⟨Bool.eq_false_iff.mpr live, .inr (.inl ⟨by simpa using empty, rfl, rfl⟩)⟩
    | choosing =>
      rw [stage] at passed unready
      cases passed
      have live : ¬ link.cancelled = true := unready .done (by decide)
      have empty : ¬ (!link.internal.isEmpty) = true := unready .internal (by decide)
      exact ⟨Bool.eq_false_iff.mpr live, .inr (.inr ⟨by simpa using empty, rfl, rfl⟩)⟩
    | waiting | writing item | stopped => rw [stage] at passed; cases passed

theorem write_eq_some (written : link.write = some link') :
    ∃ item, link.writer = .writing item ∧
      link' = { link with writer := .pollUrgent, wire := link.wire ++ [item] } := by
  rw [write] at written
  split at written
  · next item stage =>
    obtain ⟨_, same⟩ := ite_none_right_eq_some.mp written
    exact ⟨item, stage, (some_inj.mp same).symm⟩
  · cases written

theorem drop_eq_some (dropped : link.drop = some link') :
    link' = { link with writer := .pollUrgent } := by
  rw [drop] at dropped
  split at dropped
  · obtain ⟨_, same⟩ := ite_none_right_eq_some.mp dropped
    exact (some_inj.mp same).symm
  · cases dropped

theorem fail_eq_some (failed : link.fail = some link') :
    link' = { link with writer := .stopped, cancelled := true } := by
  rw [fail] at failed
  split at failed
  · exact (some_inj.mp failed).symm
  · cases failed

theorem select_eq_some (selected : link.select out case = some (link', rest)) :
    case ∈ link.writer.cases ∧ link.receive out case = some (link', rest) := by
  obtain ⟨offered, received⟩ := ite_none_right_eq_some.mp selected
  exact ⟨contains_iff_mem.mp offered, received⟩

theorem cancel_awake (link : Link) : link.cancel.writer ≠ .waiting := by
  rw [cancel]
  by_cases asleep : link.writer = .waiting
  · simp [asleep]
  · simp [asleep]

theorem Laned.cancel (laned : link.Laned) : link.cancel.Laned :=
  ⟨laned.urgent, laned.internal⟩

end Link

/-! ### The phases along a run -/

namespace Outbound

variable {o next : Outbound}
variable {link link' : Link} {item : Queued} {out rest : List Queued}

/-- A connection keeps its context or loses it, a writer sleeps only while it has one, and the
lanes hold what belongs there. -/
structure Steady (link link' : Link) : Prop where
  ended : link.cancelled = true → link'.cancelled = true
  awake : (link.cancelled = true → link.writer ≠ .waiting) →
    link'.cancelled = true → link'.writer ≠ .waiting
  lanes : link.Laned → link'.Laned

theorem Phased.steady (phased : o.Phased) (located : o.links[index]? = some link)
    (steady : Steady link link') :
    ({ o with links := o.links.set index link' } : Outbound).Phased :=
  phased.set located steady.ended (steady.awake (phased.parked index link located))
    (steady.lanes (phased.laned index link located))

theorem steady_take {urgent internal : List Queued} (alarms : ∀ other ∈ urgent, other ∈ link.urgent)
    (fewer : ∀ other ∈ internal, other ∈ link.internal) :
    Steady link { link.take item with urgent := urgent, internal := internal } where
  ended := id
  awake _ _ := Writer.noConfusion
  lanes laned := ⟨fun other member => laned.urgent other (alarms other member),
    fun other member => laned.internal other (fewer other member)⟩

theorem steady_turn {cancelled : Bool} {wire : List Queued}
    (ended : link.cancelled = true → cancelled = true) (awake : writer ≠ .waiting) :
    Steady link { link with writer := writer, cancelled := cancelled, wire := wire } where
  ended := ended
  awake _ _ := awake
  lanes laned := ⟨laned.urgent, laned.internal⟩

theorem steady_send (sent : link.send item = some link')
    (own : item.origin = .internal ∨ item.origin = .rejoin) : Steady link link' := by
  rcases Link.offer_eq_some sent with ⟨_, rfl⟩ | ⟨_, rfl⟩
  · exact steady_take (fun _ => id) fun _ => id
  · refine ⟨id, id, fun laned => ⟨laned.urgent, fun other member => ?_⟩⟩
    rcases mem_append.mp member with old | new
    · exact laned.internal other old
    · rw [mem_singleton.mp new]
      exact own

theorem steady_sendUrgent (sent : link.sendUrgent item = some link') (own : item.origin = .urgent) :
    Steady link link' := by
  rcases Link.offer_eq_some sent with ⟨_, rfl⟩ | ⟨_, rfl⟩
  · exact steady_take (fun _ => id) fun _ => id
  · refine ⟨id, id, fun laned => ⟨fun other member => ?_, laned.internal⟩⟩
    rcases mem_append.mp member with old | new
    · exact laned.urgent other old
    · rw [mem_singleton.mp new]
      exact own

theorem steady_pass (passed : link.pass out = some link') : Steady link link' := by
  obtain ⟨running, ⟨_, rfl⟩ | ⟨_, _, rfl⟩ | ⟨_, _, rfl⟩⟩ := Link.pass_eq_some passed
  all_goals
    refine ⟨id, fun _ ended => ?_, fun laned => ⟨laned.urgent, laned.internal⟩⟩
    rw [show link.cancelled = true from ended] at running
    cases running

theorem steady_receive (received : link.receive out case = some (link', rest)) :
    Steady link link' := by
  rcases Link.receive_eq_some received with ⟨_, _, rfl, _⟩ | ⟨_, item, later, lane, rfl, _⟩ |
    ⟨_, item, later, lane, rfl, _⟩ | ⟨_, item, _, rfl⟩
  · exact steady_turn id Writer.noConfusion
  · exact steady_take (fun _ member => lane ▸ .tail _ member) fun _ => id
  · exact steady_take (fun _ => id) fun _ member => lane ▸ .tail _ member
  · exact steady_take (fun _ => id) fun _ member => member

theorem mem_of_receive (received : link.receive out case = some (link', rest)) :
    ∀ item ∈ rest, item ∈ out := by
  rcases Link.receive_eq_some received with ⟨_, _, _, rfl⟩ | ⟨_, _, _, _, _, rfl⟩ |
    ⟨_, _, _, _, _, rfl⟩ | ⟨_, _, rfl, _⟩
  · exact fun _ => id
  · exact fun _ => id
  · exact fun _ => id
  · exact fun _ member => .tail _ member

theorem Phased.connect (phased : o.Phased) (dialed : o.phase = .dialing) (rejoins : List IrcMessage)
    (link : Link) (running : link.cancelled = false) (lanes : link.Laned) :
    ({ o with phase := .registering rejoins, links := o.links ++ [link] } : Outbound).Phased where
  registered announced := by
    rw [phased.registered announced] at dialed
    cases dialed
  sending some := by
    rw [phased.sending some] at dialed
    cases dialed
  fresh _ := phased.fresh (by rw [dialed]; rfl)
  retired index other located past := by
    have earlier : index ≠ o.links.length := by
      have different := past rfl
      simpa [current] using different
    rw [getElem?_append] at located
    split at located
    · refine phased.retired index other located fun live => ?_
      rw [dialed] at live
      cases live
    · rw [getElem?_singleton] at located
      obtain ⟨_, _⟩ := ite_none_right_eq_some.mp located
      omega
  parked index other located ended := by
    rw [getElem?_append] at located
    split at located
    · exact phased.parked index other located ended
    · rw [getElem?_singleton] at located
      obtain ⟨_, same⟩ := ite_none_right_eq_some.mp located
      rw [← some_inj.mp same, running] at ended
      cases ended
  laned index other located := by
    rw [getElem?_append] at located
    split at located
    · exact phased.laned index other located
    · rw [getElem?_singleton] at located
      obtain ⟨_, same⟩ := ite_none_right_eq_some.mp located
      rw [← some_inj.mp same]
      exact lanes
  marked item member := by
    have idle : o.phase ≠ .serving := by rw [dialed]; exact Progress.noConfusion
    have drained : o.out = [] := phased.fresh (by rw [dialed]; rfl)
    have none : item ∈ o.out ++ o.sending := member
    rw [drained, phased.sending_eq_nil idle] at none
    cases none

theorem Phased.close (phased : o.Phased) (leaving : o.phase = .closing)
    (located : o.links[o.current]? = some link) :
    ({ o with phase := .idle, links := o.links.set o.current link.cancel } : Outbound).Phased where
  registered announced := by
    rw [phased.registered announced] at leaving
    cases leaving
  sending some := by
    rw [phased.sending some] at leaving
    cases leaving
  fresh early := by cases early
  retired index other found _ := by
    rw [getElem?_set] at found
    split at found
    · obtain ⟨_, same⟩ := ite_none_right_eq_some.mp found
      rw [← some_inj.mp same]
      rfl
    · next different =>
      exact phased.retired index other found fun _ => Ne.symm different
  parked := each_set phased.parked fun _ => link.cancel_awake
  laned := each_set phased.laned (phased.laned _ link located).cancel
  marked := by
    simp only [current, length_set]
    exact phased.marked

theorem Phased.stop (phased : o.Phased) :
    ({ o with stopping := true, links := o.links.map Link.cancel } : Outbound).Phased where
  registered := phased.registered
  sending := phased.sending
  fresh := phased.fresh
  retired index link located _ := by
    rw [getElem?_map] at located
    obtain ⟨before, _, rfl⟩ := map_eq_some_iff.mp located
    rfl
  parked index link located _ := by
    rw [getElem?_map] at located
    obtain ⟨before, _, rfl⟩ := map_eq_some_iff.mp located
    exact before.cancel_awake
  laned index link located := by
    rw [getElem?_map] at located
    obtain ⟨before, here, rfl⟩ := map_eq_some_iff.mp located
    exact (phased.laned index before here).cancel
  marked := by
    simp only [current, length_map]
    exact phased.marked

theorem steady_linkStep (moved : LinkStep out link link' rest) : Steady link link' := by
  cases moved with
  | send _ sent => exact steady_send sent (.inl rfl)
  | sendUrgent _ sent => exact steady_sendUrgent sent rfl
  | select _ selected => exact steady_receive (Link.select_eq_some selected).2
  | pass passed => exact steady_pass passed
  | write written =>
    obtain ⟨_, _, rfl⟩ := Link.write_eq_some written
    exact steady_turn id Writer.noConfusion
  | drop dropped =>
    rw [Link.drop_eq_some dropped]
    exact steady_turn id Writer.noConfusion
  | fail failed =>
    rw [Link.fail_eq_some failed]
    exact steady_turn (fun _ => rfl) Writer.noConfusion

theorem mem_of_linkStep (moved : LinkStep out link link' rest) : ∀ item ∈ rest, item ∈ out := by
  cases moved with
  | select _ selected => exact mem_of_receive (Link.select_eq_some selected).2
  | _ => exact fun _ member => member

theorem enters_quietly (elsewhere : o.phase ≠ .serving)
    (drained : phase.fresh = true → o.out = [] ∨ o.phase.fresh = true)
    (joining : phase.joining = true → o.phase.joining = true)
    (live : phase.live = o.phase.live) : o.Enters phase o.registered :=
  ⟨fun _ => .inr ⟨rfl, elsewhere⟩, .inr elsewhere, drained, joining, live⟩

theorem step_change (taken : o.step action = some next) : o.StepChange action next := by
  cases action with
  | start =>
    obtain ⟨⟨idle, _⟩, same⟩ := ite_none_right_eq_some.mp taken
    cases same
    exact .enter (enters_quietly (by simp [idle]) (by simp [Progress.fresh])
      (by simp [Progress.joining]) (by simp [idle, Progress.live]))
  | drain =>
    obtain ⟨draining, same⟩ := ite_none_right_eq_some.mp taken
    cases same
    split
    · next drained =>
      exact .enter (enters_quietly (by simp [draining]) (fun _ => .inl drained)
        (by simp [Progress.joining]) (by simp [draining, Progress.live]))
    · exact .drain
  | dialFails =>
    obtain ⟨dialing, same⟩ := ite_none_right_eq_some.mp taken
    cases same
    exact .enter (enters_quietly (by simp [dialing]) (by simp [Progress.fresh])
      (by simp [Progress.joining]) (by simp [dialing, Progress.live]))
  | connect =>
    obtain ⟨dialing, same⟩ := ite_none_right_eq_some.mp taken
    cases same
    exact .connect dialing rfl rfl rfl rfl rfl rfl
  | send message =>
    have sent : o.onLink o.current (·.send ⟨.internal, message⟩) = some next := by
      rw [step] at taken
      split at taken
      · exact taken
      · exact taken
      · cases taken
    obtain ⟨link, link', located, moved, rfl⟩ := onLink_eq_some sent
    exact .move located (.send message moved)
  | registerFails =>
    rw [step] at taken
    split at taken
    · next rejoins registering =>
      cases taken
      exact .enter (enters_quietly (by simp [registering]) (by simp [Progress.fresh])
        (by simp [Progress.joining]) (by simp [registering, Progress.live]))
    · cases taken
  | registerDone =>
    rw [step] at taken
    split at taken
    · next rejoins registering =>
      cases taken
      exact .enter (enters_quietly (by simp [registering]) (by simp [registering, Progress.fresh])
        (by simp [registering, Progress.joining]) (by simp [registering, Progress.live]))
    · cases taken
  | rejoin =>
    rw [step] at taken
    split at taken
    · next join rest rejoining =>
      obtain ⟨link, link', located, moved, rfl⟩ := onLink_eq_some taken
      exact .rejoin rejoining located moved
    · cases taken
  | abandon =>
    rw [step] at taken
    split at taken
    · next join rest rejoining =>
      obtain ⟨link, link', located, moved, rfl⟩ := onLink_eq_some taken
      obtain ⟨_, same⟩ := ite_none_right_eq_some.mp moved
      cases same
      -- the connection is put back as it was
      obtain ⟨inside, here⟩ := List.getElem?_eq_some_iff.mp located
      have unchanged : o.links.set o.current link = o.links := by
        rw [← here]
        exact set_getElem_self inside
      rw [unchanged]
      exact .enter (enters_quietly (by simp [rejoining]) (by simp [Progress.fresh])
        (by simp [Progress.joining]) (by simp [rejoining, Progress.live]))
    · cases taken
  | setRegistered =>
    obtain ⟨⟨rejoining, free⟩, same⟩ := ite_none_right_eq_some.mp taken
    cases same
    exact .enter ⟨fun _ => .inl rfl, .inl free.1, by simp [Progress.fresh],
      by simp [Progress.joining], by simp [rejoining, Progress.live]⟩
  | sendUrgent message =>
    obtain ⟨_, sent⟩ := ite_none_right_eq_some.mp taken
    obtain ⟨link, link', located, moved, rfl⟩ := onLink_eq_some sent
    exact .move located (.sendUrgent message moved)
  | leave =>
    obtain ⟨⟨serving, free⟩, same⟩ := ite_none_right_eq_some.mp taken
    cases same
    exact .enter ⟨nofun, .inl free.1, by simp [Progress.fresh],
      by simp [Progress.joining], by simp [serving, Progress.live]⟩
  | close =>
    obtain ⟨closing, ended⟩ := ite_none_right_eq_some.mp taken
    obtain ⟨link, link', located, moved, rfl⟩ := onLink_eq_some ended
    cases moved
    exact .close closing located
  | stop =>
    cases taken
    exact .stop
  | select _ case =>
    obtain ⟨link, located, mapped⟩ := bind_eq_some_iff.mp taken
    obtain ⟨⟨link', rest⟩, selected, same⟩ := map_eq_some_iff.mp mapped
    cases same
    exact .move located (.select case selected)
  | pass =>
    obtain ⟨link, link', located, moved, rfl⟩ := onLink_eq_some taken
    exact .move located (.pass moved)
  | write =>
    obtain ⟨link, link', located, moved, rfl⟩ := onLink_eq_some taken
    exact .move located (.write moved)
  | drop =>
    obtain ⟨link, link', located, moved, rfl⟩ := onLink_eq_some taken
    exact .move located (.drop moved)
  | fail =>
    obtain ⟨link, link', located, moved, rfl⟩ := onLink_eq_some taken
    exact .move located (.fail moved)
  | accept messages =>
    obtain ⟨_, accepted⟩ := ite_none_right_eq_some.mp taken
    cases result : o.sendAll messages with
    | error =>
      rw [result] at accepted
      cases accepted
    | ok =>
      rw [result] at accepted
      cases accepted
      obtain ⟨registered, rfl⟩ := sendAll_eq_ok result
      exact .accept registered
  | push =>
    obtain ⟨_, rest, held, ⟨_, link, located, asleep, rfl⟩ | rfl⟩ := push_eq_some taken
    · exact .handOver held located asleep
    · exact .queue held

theorem Phased.step (phased : o.Phased) (effect : o.StepChange action next) : next.Phased := by
  cases effect with
  | enter entry => exact phased.enter entry
  | drain => exact phased.shrink (fun _ member => mem_of_mem_tail member) fun _ => id
  | @connect _ rejoins link dialing running quiet empty =>
    refine phased.connect dialing rejoins link running
      ⟨fun item member => ?_, fun item member => ?_⟩
    · rw [quiet] at member
      cases member
    · rw [empty] at member
      cases member
  | @move _ index link link' rest located moved =>
    have fewer : ({ o with out := rest, sending := o.sending } : Outbound).Phased :=
      phased.shrink (mem_of_linkStep moved) fun _ member => member
    exact fewer.steady located (steady_linkStep moved)
  | @rejoin join rest link link' rejoining located sent =>
    have entered : ({ o with phase := .rejoining rest, registered := o.registered } :
        Outbound).Phased :=
      phased.enter (enters_quietly (by simp [rejoining]) (by simp [rejoining, Progress.fresh])
        (by simp [rejoining, Progress.joining]) (by simp [rejoining, Progress.live]))
    exact entered.steady located (steady_send sent (.inr rfl))
  | close closing located => exact phased.close closing located
  | stop => exact phased.stop
  | accept registered =>
    refine ⟨phased.registered, fun _ => phased.registered registered, phased.fresh,
      phased.retired, phased.parked, phased.laned, fun item member => ?_⟩
    rcases mem_append.mp member with queued | held
    · exact phased.marked item (mem_append_left _ queued)
    · obtain ⟨_, _, rfl⟩ := mem_map.mp held
      rfl
  | @handOver _ index link item rest held located =>
    have fewer : ({ o with out := o.out, sending := rest } : Outbound).Phased :=
      phased.shrink (fun _ => id) fun other member => by
        rw [held]
        exact .tail _ member
    exact fewer.steady located (steady_take (fun _ => id) fun _ => id)
  | @queue _ item rest held =>
    have serving : o.phase = .serving := phased.sending (by rw [held]; exact cons_ne_nil _ _)
    refine ⟨phased.registered, fun _ => serving, fun early => ?_, phased.retired, phased.parked,
      phased.laned, fun other member => phased.marked other ?_⟩
    · rw [show o.phase = .serving from serving] at early
      cases early
    · rw [held]
      simpa using member

theorem phased_start {capacity : Nat} : ({ capacity := capacity } : Outbound).Phased where
  registered announced := by cases announced
  sending some := absurd rfl some
  fresh _ := rfl
  retired _ _ located := by cases located
  parked _ _ located := by cases located
  laned _ _ located := by cases located
  marked _ member := by cases member

end Outbound

end Ircthing.Irc
