/-
This file proves in which order messages reach the wire and on which connection, over every
interleaving of the goroutines of `Irc/Outbound.lean`.
-/

import Ircthing.Irc.Outbound

namespace Ircthing.Irc

open Library.Machine List Option Queued

/-! ### Rejoins go first -/

def Writer.held : Writer → List Queued
  | .writing item => [item]
  | _ => []

def RejoinsFirst (items : List Queued) : Prop :=
  items.Pairwise fun earlier later => earlier.IsAccepted → ¬ later.IsRejoin

/-- What is true of a connection along a run: its writer has taken messages in order, and while a
JOIN of the rejoin list is queued it has taken no accepted message and will ask the internal lane
first. -/
structure Link.Orderly (link : Link) : Prop where
  inOrder : RejoinsFirst link.taken
  behind : ∀ item ∈ link.internal, item.IsRejoin →
    (∀ earlier ∈ link.taken, ¬ earlier.IsAccepted) ∧
      link.writer ≠ .choosing ∧ link.writer ≠ .waiting
  written : (link.wire ++ link.writer.held).Sublist link.taken

namespace Link

variable {link link' : Link}
variable {item : Queued} {out rest : List Queued}

section

variable (orderly : link.Orderly)
include orderly

theorem Orderly.wire_sublist : link.wire.Sublist link.taken :=
  (sublist_append_left _ _).trans orderly.written

theorem Orderly.take {urgent internal : List Queued}
    (fewer : ∀ other ∈ internal, other ∈ link.internal)
    (late : item.IsRejoin → ∀ earlier ∈ link.taken, ¬ earlier.IsAccepted)
    (early : item.IsAccepted → ∀ other ∈ internal, ¬ other.IsRejoin) :
    ({ link.take item with urgent := urgent, internal := internal } : Link).Orderly where
  inOrder := by
    refine pairwise_append.mpr ⟨orderly.inOrder, pairwise_singleton _ _, ?_⟩
    intro earlier before last member accepted rejoin
    rw [mem_singleton.mp member] at rejoin
    exact late rejoin earlier before accepted
  behind other member rejoin := by
    obtain ⟨none, _, _⟩ := orderly.behind other (fewer other member) rejoin
    refine ⟨fun earlier before accepted => ?_, Writer.noConfusion, Writer.noConfusion⟩
    rcases mem_append.mp before with old | new
    · exact none earlier old accepted
    · rw [mem_singleton.mp new] at accepted
      exact early accepted other member rejoin
  written := orderly.wire_sublist.append (Sublist.refl _)

theorem Orderly.turn {writer : Writer} {cancelled : Bool} (free : writer.held = [])
    (asks : link.internal ≠ [] → (link.writer ≠ .choosing → writer ≠ .choosing) ∧
      (link.writer ≠ .waiting → writer ≠ .waiting)) :
    ({ link with writer := writer, cancelled := cancelled } : Link).Orderly where
  inOrder := orderly.inOrder
  behind item member rejoin := by
    obtain ⟨none, choosing, waiting⟩ := orderly.behind item member rejoin
    have turned := asks (ne_nil_of_mem member)
    exact ⟨none, turned.1 choosing, turned.2 waiting⟩
  written := by
    rw [free, append_nil]
    exact orderly.wire_sublist

theorem Orderly.cancel : link.cancel.Orderly where
  inOrder := orderly.inOrder
  behind item member rejoin := by
    obtain ⟨none, choosing, waiting⟩ := orderly.behind item member rejoin
    rw [Link.cancel]
    simp only [if_neg waiting]
    exact ⟨none, choosing, waiting⟩
  written := by
    rw [Link.cancel]
    by_cases asleep : link.writer = .waiting
    · simp only [if_pos asleep, Writer.held, append_nil]
      exact orderly.wire_sublist
    · simp only [if_neg asleep]
      exact orderly.written

theorem Orderly.send (sent : link.send item = some link')
    (own : ¬ item.IsAccepted) (inTurn : item.IsRejoin →
      (∀ earlier ∈ link.taken, ¬ earlier.IsAccepted) ∧ link.writer ≠ .choosing) :
    link'.Orderly := by
  rcases offer_eq_some sent with ⟨_, rfl⟩ | ⟨awake, rfl⟩
  · exact orderly.take (fun _ => id) (fun rejoin => (inTurn rejoin).1)
      fun accepted => absurd accepted own
  · refine ⟨orderly.inOrder, fun other member rejoin => ?_, orderly.written⟩
    rcases mem_append.mp member with old | new
    · exact orderly.behind other old rejoin
    · rw [mem_singleton.mp new] at rejoin
      exact ⟨(inTurn rejoin).1, (inTurn rejoin).2, awake⟩

theorem Orderly.sendUrgent (sent : link.sendUrgent item = some link')
    (urgent : item.origin = .urgent) : link'.Orderly := by
  rcases offer_eq_some sent with ⟨_, rfl⟩ | ⟨_, rfl⟩
  · exact orderly.take (fun _ => id)
      (fun rejoin => absurd rejoin (by simp [IsRejoin, urgent]))
      fun accepted => absurd accepted (by simp [IsAccepted, urgent])
  · exact ⟨orderly.inOrder, orderly.behind, orderly.written⟩

theorem Orderly.receive (laned : link.Laned)
    (marked : ∀ item ∈ out, item.IsAccepted) {case : Case} (offered : case ∈ link.writer.cases)
    (received : link.receive out case = some (link', rest)) : link'.Orderly := by
  rcases receive_eq_some received with ⟨_, _, rfl, _⟩ | ⟨_, item, later, lane, rfl, _⟩ |
    ⟨_, item, later, lane, rfl, _⟩ | ⟨rfl, item, rfl, rfl⟩
  · exact orderly.turn rfl fun _ => ⟨fun _ => Writer.noConfusion, fun _ => Writer.noConfusion⟩
  · have urgent := laned.urgent item (lane ▸ mem_cons_self)
    exact orderly.take (fun _ => id)
      (fun rejoin => absurd rejoin (by simp [IsRejoin, urgent]))
      fun accepted => absurd accepted (by simp [IsAccepted, urgent])
  · have queued : item ∈ link.internal := lane ▸ mem_cons_self
    refine orderly.take (fun _ member => lane ▸ .tail _ member)
      (fun rejoin => (orderly.behind item queued rejoin).1) fun accepted => absurd accepted ?_
    rcases laned.internal item queued with own | own <;> simp [IsAccepted, own]
  · -- behind the second select no JOIN waits in the internal lane
    have choosing := Writer.choosing_of_mem_cases offered
    refine orderly.take (fun _ => id) (fun rejoin => ?_)
      fun _ other member rejoin => (orderly.behind other member rejoin).2.1 choosing
    obtain ⟨_, accepted⟩ := marked item mem_cons_self
    rw [IsRejoin, accepted] at rejoin
    cases rejoin

theorem Orderly.pass (passed : link.pass out = some link') : link'.Orderly := by
  obtain ⟨_, ⟨_, rfl⟩ | ⟨empty, _, rfl⟩ | ⟨empty, _, rfl⟩⟩ := pass_eq_some passed
  · exact orderly.turn rfl fun _ => ⟨fun _ => Writer.noConfusion, fun _ => Writer.noConfusion⟩
  · exact orderly.turn rfl fun queued => absurd empty queued
  · exact orderly.turn rfl fun queued => absurd empty queued

theorem Orderly.write (written : link.write = some link') : link'.Orderly := by
  obtain ⟨item, writing, rfl⟩ := write_eq_some written
  refine ⟨orderly.inOrder, fun other member rejoin => ?_, ?_⟩
  · exact ⟨(orderly.behind other member rejoin).1, Writer.noConfusion, Writer.noConfusion⟩
  · have held := orderly.written
    rw [writing] at held
    show ((link.wire ++ [item]) ++ []).Sublist link.taken
    rw [append_nil]
    exact held

theorem Orderly.linkStep (laned : link.Laned) (marked : ∀ item ∈ out, item.IsAccepted)
    (moved : Outbound.LinkStep out link link' rest) : link'.Orderly := by
  cases moved with
  | send _ sent =>
    exact orderly.send sent (by simp [IsAccepted]) nofun
  | sendUrgent _ sent => exact orderly.sendUrgent sent rfl
  | select _ selected =>
    obtain ⟨offered, received⟩ := select_eq_some selected
    exact orderly.receive laned marked offered received
  | pass passed => exact orderly.pass passed
  | write written => exact orderly.write written
  | drop dropped =>
    rw [drop_eq_some dropped]
    exact orderly.turn rfl fun _ => ⟨fun _ => Writer.noConfusion, fun _ => Writer.noConfusion⟩
  | fail failed =>
    rw [fail_eq_some failed]
    exact orderly.turn rfl fun _ => ⟨fun _ => Writer.noConfusion, fun _ => Writer.noConfusion⟩

end

theorem taken_linkStep (laned : link.Laned) (moved : Outbound.LinkStep out link link' rest) :
    ∀ item ∈ link'.taken, item ∈ link.taken ∨ ¬ item.IsAccepted ∨
      (link.writer = .choosing ∧ item ∈ out) := by
  have old : ∀ item ∈ link.taken, item ∈ link.taken ∨ ¬ item.IsAccepted ∨
      (link.writer = .choosing ∧ item ∈ out) := fun _ member => .inl member
  have more : ∀ new : Queued, ¬ new.IsAccepted ∨ (link.writer = .choosing ∧ new ∈ out) →
      ∀ item ∈ link.taken ++ [new], item ∈ link.taken ∨ ¬ item.IsAccepted ∨
        (link.writer = .choosing ∧ item ∈ out) := by
    intro new reason item member
    rcases mem_append.mp member with before | last
    · exact .inl before
    · rw [mem_singleton.mp last]
      exact .inr reason
  cases moved with
  | send message sent | sendUrgent message sent =>
    rcases offer_eq_some sent with ⟨_, rfl⟩ | ⟨_, rfl⟩
    · exact more _ (.inl (by simp [IsAccepted]))
    · exact old
  | select _ selected =>
    obtain ⟨offered, received⟩ := select_eq_some selected
    rcases receive_eq_some received with ⟨_, _, rfl, _⟩ | ⟨_, item, later, lane, rfl, _⟩ |
      ⟨_, item, later, lane, rfl, _⟩ | ⟨rfl, item, rfl, rfl⟩
    · exact old
    · have urgent := laned.urgent item (lane ▸ mem_cons_self)
      exact more item (.inl (by simp [IsAccepted, urgent]))
    · refine more item (.inl ?_)
      rcases laned.internal item (lane ▸ mem_cons_self) with own | own <;>
        simp [IsAccepted, own]
    · exact more item (.inr ⟨Writer.choosing_of_mem_cases offered, mem_cons_self⟩)
  | pass passed =>
    obtain ⟨_, ⟨_, rfl⟩ | ⟨_, _, rfl⟩ | ⟨_, _, rfl⟩⟩ := pass_eq_some passed
    all_goals exact old
  | write written =>
    obtain ⟨_, _, rfl⟩ := write_eq_some written
    exact old
  | drop dropped =>
    rw [drop_eq_some dropped]
    exact old
  | fail failed =>
    rw [fail_eq_some failed]
    exact old

end Link

namespace Outbound

/-- The order along a run: every connection is orderly, and while JOINs are still to be enqueued
its writer has taken no accepted message. -/
structure Ordered (o : Outbound) : Prop where
  phased : o.Phased
  each : o.Each fun _ link => link.Orderly
  early : o.phase.joining = true → o.Each fun index link =>
    index = o.current → ∀ item ∈ link.taken, ¬ item.IsAccepted

/-- No JOIN of the rejoin list is enqueued while the writer of the connection stands between its
second and its third select. -/
def RejoinsInTurn (o : Outbound) (action : Action) : Prop :=
  action = .rejoin → (o.links[o.current]?).map (·.writer) ≠ some .choosing

instance (o : Outbound) (action : Action) : Decidable (o.RejoinsInTurn action) :=
  inferInstanceAs (Decidable (_ → _))

variable {o next : Outbound}

theorem Phased.accepted (phased : o.Phased) : ∀ item ∈ o.out ++ o.sending, item.IsAccepted :=
  fun item member => ⟨o.current, phased.marked item member⟩

theorem Phased.out_eq_nil (phased : o.Phased) (joining : o.phase.joining = true) : o.out = [] := by
  refine phased.fresh ?_
  cases phase : o.phase <;> rw [phase] at joining <;> first | rfl | cases joining

theorem current_append (o : Outbound) (phase : Progress) (link : Link) :
    Outbound.current { o with phase := phase, links := o.links ++ [link] } = o.links.length := by
  simp [current]

theorem Ordered.step {action : Action} (ordered : o.Ordered) (inTurn : o.RejoinsInTurn action)
    (effect : o.StepChange action next) : next.Ordered := by
  have phased := ordered.phased.step effect
  cases effect with
  | enter entry =>
    exact ⟨phased, ordered.each, fun joining => ordered.early (entry.joining joining)⟩
  | drain | accept registered | queue held => exact ⟨phased, ordered.each, ordered.early⟩
  | @connect _ rejoins link _ _ quiet empty none unwritten start =>
    have fresh : link.Orderly := by
      refine ⟨?_, fun item member => ?_, ?_⟩
      · rw [none]
        exact Pairwise.nil
      · rw [empty] at member
        cases member
      · rw [none, unwritten, start]
        exact Sublist.refl _
    refine ⟨phased, fun index other located => ?_, fun _ index other located => ?_⟩
    · rw [getElem?_append] at located
      split at located
      · exact ordered.each index other located
      · rw [getElem?_singleton] at located
        obtain ⟨_, same⟩ := ite_none_right_eq_some.mp located
        rw [← some_inj.mp same]
        exact fresh
    · rw [current_append]
      rintro rfl item member
      rw [getElem?_concat_length, some_inj] at located
      rw [← located, none] at member
      cases member
  | @move _ index link link' rest located moved =>
    have laned := ordered.phased.laned index link located
    have orderly := (ordered.each index link located).linkStep laned
      (fun item member => ordered.phased.accepted item (mem_append_left _ member)) moved
    refine ⟨phased, each_set ordered.each orderly, fun joining => ?_⟩
    simp only [Each, current, length_set]
    refine each_set (ordered.early joining) fun here item member accepted => ?_
    rcases Link.taken_linkStep laned moved item member with before | own | ⟨_, queued⟩
    · exact ordered.early joining index link located here item before accepted
    · exact own accepted
    · rw [ordered.phased.out_eq_nil joining] at queued
      cases queued
  | @rejoin join rest link link' rejoining located sent =>
    have joining : o.phase.joining = true := by rw [rejoining]; rfl
    have none := ordered.early joining _ link located rfl
    have awake : link.writer ≠ .choosing := by
      have turn := inTurn rfl
      rw [located, map_some, ne_eq, some_inj] at turn
      exact turn
    have orderly := (ordered.each _ link located).send sent (by simp [IsAccepted])
      fun _ => ⟨none, awake⟩
    refine ⟨phased, each_set ordered.each orderly, fun _ => ?_⟩
    simp only [Each, current, length_set]
    refine each_set (ordered.early joining) fun _ item member => ?_
    rcases Link.offer_eq_some sent with ⟨_, rfl⟩ | ⟨_, rfl⟩
    · rcases mem_append.mp member with before | last
      · exact none item before
      · rw [mem_singleton.mp last]
        simp [IsAccepted]
    · exact none item member
  | @close _ link closing located =>
    refine ⟨phased, each_set ordered.each (ordered.each _ link located).cancel, fun joining => ?_⟩
    cases joining
  | stop =>
    refine ⟨phased, fun index link located => ?_, fun joining index link located => ?_⟩
    · rw [getElem?_map] at located
      obtain ⟨before, here, rfl⟩ := map_eq_some_iff.mp located
      exact (ordered.each index before here).cancel
    · rw [getElem?_map] at located
      obtain ⟨before, here, rfl⟩ := map_eq_some_iff.mp located
      simp only [current, length_map]
      exact ordered.early joining index before here
  | @handOver _ index link item rest held located asleep =>
    have serving : o.phase = .serving :=
      ordered.phased.sending (by rw [held]; exact cons_ne_nil _ _)
    have promised : item.IsAccepted :=
      ordered.phased.accepted item (mem_append_right _ (held ▸ mem_cons_self))
    have orderly := ordered.each index link located
    refine ⟨phased, each_set ordered.each ?_, fun joining => ?_⟩
    · refine orderly.take (fun _ => id) (fun rejoin => ?_)
        fun _ other member rejoin => (orderly.behind other member rejoin).2.2 asleep
      obtain ⟨_, accepted⟩ := promised
      rw [IsRejoin, accepted] at rejoin
      cases rejoin
    · rw [show o.phase = .serving from serving] at joining
      cases joining

theorem ordered_start {capacity : Nat} : ({ capacity := capacity } : Outbound).Ordered where
  phased := phased_start
  each _ _ located := by cases located
  early _ _ _ located := by cases located

/-- If no JOIN of the rejoin list is enqueued while the writer stands between its second and third
select, every connection writes these JOINs before the messages `sendAll` accepted. -/
theorem rejoins_go_first (capacity : Nat) (o : Outbound)
    (reached : Reaches step RejoinsInTurn { capacity := capacity } o) :
    ∀ link ∈ o.links, RejoinsFirst link.wire := by
  have ordered : o.Ordered :=
    reached.invariant ordered_start fun _ _ _ before inTurn taken =>
      before.step inTurn (step_change taken)
  intro link member
  obtain ⟨index, located⟩ := mem_iff_getElem?.mp member
  have orderly := ordered.each index link located
  exact orderly.inOrder.sublist orderly.wire_sublist

def joinA : IrcMessage := newMsg "JOIN" [lit "#a"]

def hello : IrcMessage := newMsg "PRIVMSG" [lit "#a", lit "hello"]

def inTurn : List Action :=
  [.start, .drain, .connect [joinA], .send (newMsg "NICK" [lit "me"]), .pass 0,
    .select 0 .internal, .write 0, .pass 0, .pass 0, .pass 0, .registerDone, .rejoin,
    .setRegistered, .accept [hello], .push, .write 0, .pass 0, .pass 0, .select 0 .out, .write 0]

def overtaken : List Action :=
  [.start, .drain, .connect [joinA], .send (newMsg "NICK" [lit "me"]), .pass 0,
    .select 0 .internal, .write 0, .pass 0, .pass 0, .registerDone, .rejoin, .setRegistered,
    .accept [hello], .push, .select 0 .out, .write 0, .pass 0, .select 0 .internal, .write 0]

def wires (o : Outbound) : List (List Origin) :=
  o.links.map fun link => link.wire.map (·.origin)

theorem rejoins_go_first_inTurn :
    ∃ o, Reaches step RejoinsInTurn { capacity := 8 } o ∧
      o.wires = [[.internal, .rejoin, .accepted 0]] ∧ ∀ link ∈ o.links, RejoinsFirst link.wire := by
  have ran : ((run (guarded step RejoinsInTurn) { capacity := 8 } inTurn).map wires) =
      some [[.internal, .rejoin, .accepted 0]] := by decide +kernel
  obtain ⟨o, ran, wired⟩ := map_eq_some_iff.mp ran
  have reached := reaches_run .refl ran
  exact ⟨o, reached, wired, rejoins_go_first 8 o reached⟩

/-- A message a sender was promised overtakes the JOIN of the channel it is for. -/
theorem rejoin_overtaken :
    ∃ o, Reaches step (fun _ _ => True) { capacity := 8 } o ∧
      ∃ link ∈ o.links, ¬ RejoinsFirst link.wire := by
  have ran : ((run (guarded step fun _ _ => True) { capacity := 8 } overtaken).map wires) =
      some [[.internal, .accepted 0, .rejoin]] := by decide +kernel
  obtain ⟨o, ran, wired⟩ := map_eq_some_iff.mp ran
  obtain ⟨link, alone, written⟩ := map_eq_singleton_iff.mp wired
  refine ⟨o, reaches_run .refl ran, link, alone ▸ mem_cons_self, fun first => ?_⟩
  have origins : (link.wire.map (·.origin)).Pairwise fun earlier later =>
      (∃ connection, earlier = .accepted connection) → later ≠ .rejoin :=
    pairwise_map.mpr first
  rw [written] at origins
  simp at origins

/-! ### Messages stay on their connection -/

def Quiet (o : Outbound) : Prop :=
  ∀ index < o.current, (o.links[index]?).map (·.writer) ≠ some .choosing

instance (o : Outbound) : Decidable o.Quiet := Nat.decidableBallLT _ _

/-- A call of `sendAll` is accepted. -/
def Action.isAccept : Action → Bool
  | .accept _ => true
  | _ => false

/-- `sendAll` accepts nothing while a writer of an earlier connection stands there. -/
def AcceptsQuietly (o : Outbound) (action : Action) : Prop :=
  action.isAccept = true → o.Quiet

instance (o : Outbound) (action : Action) : Decidable (o.AcceptsQuietly action) :=
  inferInstanceAs (Decidable (_ → _))

/-- A writer has taken accepted messages of its own connection only, and while there are messages to
take no other writer can take one. -/
structure Kept (o : Outbound) : Prop where
  phased : o.Phased
  own : o.Each fun index link =>
    ∀ item ∈ link.taken, ∀ connection, item.origin = .accepted connection → connection = index
  quiet : o.out ++ o.sending ≠ [] → o.Each fun index link =>
    link.writer = .choosing → index = o.current

theorem Phased.current_of_running (phased : o.Phased) {index : Nat} {link : Link}
    (located : o.links[index]? = some link) (running : link.cancelled = false) :
    index = o.current := by
  by_contra different
  have ended := phased.retired index link located fun _ => different
  rw [running] at ended
  cases ended

theorem choosing_linkStep {link link' : Link} {out rest : List Queued}
    (moved : LinkStep out link link' rest) (choosing : link'.writer = .choosing) :
    link.writer = .choosing ∨ link.cancelled = false := by
  cases moved with
  | send message sent | sendUrgent message sent =>
    rcases Link.offer_eq_some sent with ⟨_, rfl⟩ | ⟨_, rfl⟩
    · cases choosing
    · exact .inl choosing
  | select _ selected =>
    obtain ⟨_, received⟩ := Link.select_eq_some selected
    rcases Link.receive_eq_some received with ⟨_, _, rfl, _⟩ | ⟨_, _, _, _, rfl, _⟩ |
      ⟨_, _, _, _, rfl, _⟩ | ⟨_, _, _, rfl⟩
    all_goals cases choosing
  | pass passed => exact .inr (Link.pass_eq_some passed).1
  | write written =>
    obtain ⟨_, _, rfl⟩ := Link.write_eq_some written
    cases choosing
  | drop dropped =>
    rw [Link.drop_eq_some dropped] at choosing
    cases choosing
  | fail failed =>
    rw [Link.fail_eq_some failed] at choosing
    cases choosing

theorem choosing_of_cancel {link : Link} (choosing : link.cancel.writer = .choosing) :
    link.writer = .choosing := by
  rw [Link.cancel] at choosing
  by_cases asleep : link.writer = .waiting
  · simp [asleep] at choosing
  · simpa [asleep] using choosing

theorem Kept.step {action : Action} (kept : o.Kept) (quietly : o.AcceptsQuietly action)
    (effect : o.StepChange action next) : next.Kept := by
  have phased := kept.phased.step effect
  cases effect with
  | enter => exact ⟨phased, kept.own, kept.quiet⟩
  | drain =>
    refine ⟨phased, kept.own, fun some => kept.quiet fun none => some ?_⟩
    obtain ⟨empty, idle⟩ := append_eq_nil_iff.mp none
    rw [empty, idle]
    rfl
  | @connect _ rejoins link dialing _ _ _ none _ _ =>
    refine ⟨phased, fun index other located => ?_, fun some => absurd ?_ some⟩
    · rw [getElem?_append] at located
      split at located
      · exact kept.own index other located
      · rw [getElem?_singleton] at located
        obtain ⟨_, same⟩ := ite_none_right_eq_some.mp located
        rw [← some_inj.mp same, none]
        intro item member
        cases member
    · rw [kept.phased.fresh (by rw [dialing]; rfl), kept.phased.sending_eq_nil (by simp [dialing])]
      rfl
  | @move _ index link link' rest located moved =>
    refine ⟨phased, each_set kept.own fun item member connection accepted => ?_, fun some => ?_⟩
    · rcases Link.taken_linkStep (kept.phased.laned index link located) moved item member with
        before | foreign | ⟨choosing, queued⟩
      · exact kept.own index link located item before connection accepted
      · exact absurd ⟨connection, accepted⟩ foreign
      · have listed := mem_append_left o.sending queued
        have here := kept.quiet (ne_nil_of_mem listed) index link located choosing
        rw [kept.phased.marked item listed] at accepted
        cases accepted
        exact here.symm
    · have before : o.out ++ o.sending ≠ [] := by
        obtain ⟨item, member⟩ := exists_mem_of_ne_nil _ some
        rcases mem_append.mp member with queued | held
        · exact ne_nil_of_mem (mem_append_left _ (mem_of_linkStep moved item queued))
        · exact ne_nil_of_mem (mem_append_right _ held)
      simp only [Each, current, length_set]
      refine each_set (kept.quiet before) fun choosing => ?_
      rcases choosing_linkStep moved choosing with already | running
      · exact kept.quiet before index link located already
      · exact kept.phased.current_of_running located running
  | @rejoin join rest link link' rejoining located sent =>
    refine ⟨phased, each_set kept.own fun item member connection accepted => ?_,
      fun some => absurd ?_ some⟩
    · rcases Link.offer_eq_some sent with ⟨_, rfl⟩ | ⟨_, rfl⟩
      · rcases mem_append.mp member with before | last
        · exact kept.own _ link located item before connection accepted
        · rw [mem_singleton.mp last] at accepted
          cases accepted
      · exact kept.own _ link located item member connection accepted
    · show o.out ++ o.sending = []
      rw [kept.phased.fresh (by rw [rejoining]; rfl),
        kept.phased.sending_eq_nil (by simp [rejoining])]
      rfl
  | @close _ link closing located =>
    refine ⟨phased, each_set kept.own (kept.own _ link located), fun some => ?_⟩
    simp only [Each, current, length_set]
    refine each_set (kept.quiet some) fun _ => rfl
  | stop =>
    refine ⟨phased, fun index link located => ?_, fun some index link located => ?_⟩
    · rw [getElem?_map] at located
      obtain ⟨before, here, rfl⟩ := map_eq_some_iff.mp located
      exact kept.own index before here
    · rw [getElem?_map] at located
      obtain ⟨before, here, rfl⟩ := map_eq_some_iff.mp located
      simp only [current, length_map]
      exact fun choosing => kept.quiet some index before here (choosing_of_cancel choosing)
  | accept =>
    refine ⟨phased, kept.own, fun _ index link located choosing => ?_⟩
    have inside : index < o.links.length := (List.getElem?_eq_some_iff.mp located).1
    by_contra different
    have earlier : index < o.current := by
      have last : index ≠ o.links.length - 1 := different
      rw [current]
      omega
    have awake := quietly rfl index earlier
    rw [located, map_some, ne_eq, some_inj] at awake
    exact awake choosing
  | @handOver _ index link item rest held located asleep =>
    have listed : item ∈ o.out ++ o.sending :=
      mem_append_right _ (held ▸ mem_cons_self)
    have running : link.cancelled = false := by
      by_contra ended
      exact kept.phased.parked index link located (Bool.eq_true_of_not_eq_false ended) asleep
    have here := kept.phased.current_of_running located running
    refine ⟨phased, each_set kept.own fun other member connection accepted => ?_, fun _ => ?_⟩
    · rcases mem_append.mp member with before | last
      · exact kept.own index link located other before connection accepted
      · rw [mem_singleton.mp last, kept.phased.marked item listed] at accepted
        cases accepted
        exact here.symm
    · simp only [Each, current, length_set]
      exact each_set (kept.quiet (ne_nil_of_mem listed)) fun _ => here
  | @queue _ item rest held =>
    refine ⟨phased, kept.own, fun _ => kept.quiet ?_⟩
    exact ne_nil_of_mem (mem_append_right _ (held ▸ mem_cons_self))

theorem kept_start {capacity : Nat} : ({ capacity := capacity } : Outbound).Kept where
  phased := phased_start
  own _ _ located := by cases located
  quiet _ _ _ located := by cases located

/-- If `sendAll` accepts nothing while the writer of an earlier connection stands between its second
and third select, an accepted message is taken only by the writer of the connection it was accepted
for. -/
theorem queued_messages_stay (capacity : Nat) (o : Outbound)
    (reached : Reaches step AcceptsQuietly { capacity := capacity } o) (index : Nat) (link : Link)
    (located : o.links[index]? = some link) (item : Queued) (taken : item ∈ link.taken)
    (connection : Nat) (accepted : item.origin = .accepted connection) : connection = index := by
  have kept : o.Kept :=
    reached.invariant kept_start fun _ _ _ before quietly taken =>
      before.step quietly (step_change taken)
  exact kept.own index link located item taken connection accepted

def isolated : List Action :=
  [.start, .drain, .connect [], .registerDone, .setRegistered, .pass 0, .pass 0, .leave, .close,
    .select 0 .done, .start, .drain, .connect [], .registerDone, .setRegistered, .accept [hello],
    .push, .pass 1, .pass 1, .select 1 .out]

def leaked : List Action :=
  [.start, .drain, .connect [], .registerDone, .setRegistered, .pass 0, .pass 0, .leave, .close,
    .start, .drain, .connect [], .registerDone, .setRegistered, .accept [hello], .push,
    .select 0 .out]

def takings (o : Outbound) : List (List Origin) :=
  o.links.map fun link => link.taken.map (·.origin)

theorem queued_messages_stay_isolated :
    ∃ o, Reaches step AcceptsQuietly { capacity := 8 } o ∧
      ∃ link item, o.links[1]? = some link ∧ item ∈ link.taken ∧
        ∃ connection, item.origin = .accepted connection ∧ connection = 1 := by
  have ran : ((run (guarded step AcceptsQuietly) { capacity := 8 } isolated).map takings) =
      some [[], [.accepted 1]] := by decide +kernel
  obtain ⟨o, ran, taken⟩ := map_eq_some_iff.mp ran
  have reached := reaches_run .refl ran
  have second : (o.links[1]?).map (fun link => link.taken.map (·.origin)) = some [.accepted 1] := by
    rw [← getElem?_map]
    exact congrArg (·[1]?) taken
  obtain ⟨link, located, one⟩ := map_eq_some_iff.mp second
  obtain ⟨item, alone, accepted⟩ := map_eq_singleton_iff.mp one
  have member : item ∈ link.taken := alone ▸ mem_cons_self
  exact ⟨o, reached, link, item, located, member, 1, accepted,
    queued_messages_stay 8 o reached 1 link located item member 1 accepted⟩

/-- The writer of the first connection takes a message that was accepted for the second. -/
theorem queued_message_leaked :
    ∃ o, Reaches step (fun _ _ => True) { capacity := 8 } o ∧
      ∃ link item, o.links[0]? = some link ∧ item ∈ link.taken ∧ item.origin = .accepted 1 := by
  have ran : ((run (guarded step fun _ _ => True) { capacity := 8 } leaked).map takings) =
      some [[.accepted 1], []] := by decide +kernel
  obtain ⟨o, ran, taken⟩ := map_eq_some_iff.mp ran
  have first : (o.links[0]?).map (fun link => link.taken.map (·.origin)) = some [.accepted 1] := by
    rw [← getElem?_map]
    exact congrArg (·[0]?) taken
  obtain ⟨link, located, one⟩ := map_eq_some_iff.mp first
  obtain ⟨item, alone, accepted⟩ := map_eq_singleton_iff.mp one
  exact ⟨o, reaches_run .refl ran, link, item, located, alone ▸ mem_cons_self, accepted⟩

/-- In every interleaving what waits belongs to the current connection, nothing waits when one is
dialed, and all but the live one have ended. -/
theorem connections_phased (capacity : Nat) (o : Outbound)
    (reached : Reaches step (fun _ _ => True) { capacity := capacity } o) : o.Phased :=
  reached.invariant phased_start fun _ _ _ before _ taken => before.step (step_change taken)

theorem connections_phased_leaked :
    ∃ o, Reaches step (fun _ _ => True) { capacity := 8 } o ∧
      o.takings = [[.accepted 1], []] ∧ o.Phased := by
  have ran : ((run (guarded step fun _ _ => True) { capacity := 8 } leaked).map takings) =
      some [[.accepted 1], []] := by decide +kernel
  obtain ⟨o, ran, taken⟩ := map_eq_some_iff.mp ran
  have reached := reaches_run .refl ran
  exact ⟨o, reached, taken, connections_phased 8 o reached⟩

end Outbound

end Ircthing.Irc
