/-
This file says once what a line can do to the roster. Each handler is a run of such moves, so a
property holds after every line when every move keeps it.
-/

import Ircthing.Irc.Roster

namespace Ircthing.Irc

open Library Relation Option Dict ChannelState

variable {roster : Roster} {st : ChannelState} {member : Member} {bytesLeft budget : Int}
  {nick : Bytes} {ours : Bool}

/-! ### The two maps of a channel -/

namespace ChannelState

variable (st : ChannelState)

theorem half_setHalf {half other : Half} {map : Dict Bytes Member} :
    (st.setHalf half map).half other = if other = half then map else st.half other := by
  cases half <;> cases other <;> rfl

theorem half_put (half other : Half) (key : Bytes) (member : Member) :
    (st.put half key member).half other =
      if other = half then (st.half half).insert key member else st.half other :=
  half_setHalf _

theorem half_del (half other : Half) (key : Bytes) :
    (st.del half key).half other =
      if other = half then (st.half half).erase key else st.half other := by
  unfold del
  cases found : (st.half half).lookup key with
  | none =>
    show st.half other = _
    split
    next same =>
      have absent : key ∉ (st.half half).entries.keys := AList.lookup_eq_none.mp found
      rw [same]
      exact AList.ext (List.kerase_of_notMem_keys absent).symm
    · rfl
  | some => exact half_setHalf _

variable (half : Half) (key : Bytes)

@[simp] theorem name_put (member : Member) : (st.put half key member).name = st.name := by
  cases half <;> rfl

@[simp] theorem topic_put (member : Member) : (st.put half key member).topic = st.topic := by
  cases half <;> rfl

@[simp] theorem name_del : (st.del half key).name = st.name := by
  unfold del
  split
  · rfl
  · cases half <;> rfl

@[simp] theorem topic_del : (st.del half key).topic = st.topic := by
  unfold del
  split
  · rfl
  · cases half <;> rfl

@[simp] theorem bytes_put (member : Member) :
    (st.put half key member).bytes = st.bytes + st.putDelta half key member := rfl

theorem bytes_del :
    (st.del half key).bytes = st.bytes - (st.half half).weightAt memberBytes key := by
  unfold del weightAt
  cases (st.half half).lookup key with
  | none => exact (sub_zero _).symm
  | some => rfl

@[simp] theorem half_retopic (topic : Bytes) (half : Half) :
    (st.retopic topic).half half = st.half half := by
  cases half <;> rfl

@[simp] theorem half_collectNames : st.collectNames.half half = st.half half := by
  cases half <;> rfl

@[simp] theorem name_swapNames : st.swapNames.name = st.name := by
  unfold swapNames
  split <;> rfl

theorem half_swapNames {pending : Dict Bytes Member} (burst : st.pending = some pending)
    (half : Half) :
    st.swapNames.half half = if half = .members then
        pending.mapEntries fun key member => mergeKnown (st.members.lookup key) member
      else ∅ := by
  unfold swapNames
  rw [burst]
  cases half <;> rfl

theorem swapNames_of_idle (idle : st.pending = none) : st.swapNames = st := by
  unfold swapNames
  rw [idle]

end ChannelState

/-! ### Edits of a channel -/

/-- What a line does inside a channel without admitting a member. When it is `lean`, nothing
of the channel takes more bytes than before. -/
inductive Edit (isup : ISupport) (lean : Prop) (st : ChannelState) : ChannelState → Prop
  | drop (half : Half) (key : Bytes) : Edit isup lean st (st.del half key)
  | rewrite {half : Half} {key : Bytes} {old new : Member}
      (found : (st.half half).lookup key = some old) (kept : new.nick = old.nick)
      (shrinks : lean → memberBytes key new ≤ memberBytes key old) :
      Edit isup lean st (st.put half key new)
  | rekey {half : Half} {key : Bytes} {old : Member} (nick : Bytes)
      (found : (st.half half).lookup key = some old)
      (shrinks : lean → memberBytes (isup.fold nick) { old with nick } ≤ memberBytes key old) :
      Edit isup lean st ((st.del half key).put half (isup.fold nick) { old with nick })
  | retopic (topic : Bytes) (shrinks : lean → topic.length ≤ st.topic.length) :
      Edit isup lean st (st.retopic topic)
  | collect : Edit isup lean st st.collectNames
  | swap : Edit isup lean st st.swapNames

abbrev Edits (isup : ISupport) (lean : Prop) := ReflTransGen (Edit isup lean)

section Moves

variable {limits : Limits} {isup : ISupport} {bounded lean : Prop} {st : ChannelState}
  {update : Member → Member} {key : Bytes} {half : Half} {line : IrcMessage} {raws : List Bytes}
variable {roster : Roster} {full : Bool} {channel : Bytes}

inductive Move (limits : Limits) (isup : ISupport) (bounded lean : Prop) (roster : Roster) :
    Roster → Prop
  | edit (rewrite : Bytes → ChannelState → ChannelState)
      (each : ∀ key st, roster.lookup key = some st → Edits isup lean st (rewrite key st)) :
      Move limits isup bounded lean roster (roster.mapEntries rewrite)
  | leave (channel : Bytes) : Move limits isup bounded lean roster (roster.erase channel)
  | create (name : Bytes) (fresh : roster.lookup (isup.fold name) = none)
      (room : roster.size < limits.maxRosterChannels) :
      Move limits isup bounded lean roster (roster.insert (isup.fold name) { name })
  | accept {channel : Bytes} {st : ChannelState} (half : Half) (member : Member)
      (tracked : roster.lookup channel = some st)
      (room : ((st.half half).lookup (isup.fold member.nick)).isSome ∨
        roster.totalMembers < limits.maxRosterMembers)
      (cap : bounded → ((st.half half).lookup (isup.fold member.nick)).isSome ∨
        (st.half half).size < limits.maxChannelMembers)
      (grows : ¬lean) :
      Move limits isup bounded lean roster
        (roster.modify channel (·.put half (isup.fold member.nick) member))

abbrev Moves (limits : Limits) (isup : ISupport) (bounded lean : Prop) :=
  ReflTransGen (Move limits isup bounded lean)

theorem Move.ofModify (channel : Bytes) (rewrite : ChannelState → ChannelState)
    (edits : ∀ st, roster.lookup channel = some st → Edits isup lean st (rewrite st)) :
    Move limits isup bounded lean roster (roster.modify channel rewrite) := by
  refine .edit _ fun key st found => ?_
  split
  next same =>
    exact edits st (same ▸ found)
  · exact .refl

theorem Moves.ofFoldl {Item : Type} {step : Roster → Item → Roster} (items : List Item)
    (each : ∀ earlier item later, items = earlier ++ item :: later →
      Moves limits isup bounded lean (earlier.foldl step roster)
        (step (earlier.foldl step roster) item)) :
    Moves limits isup bounded lean roster (items.foldl step roster) := by
  induction items generalizing roster with
  | nil => exact .refl
  | cons item rest ih =>
    refine (each [] item rest rfl).trans (ih fun earlier next later split => ?_)
    exact each (item :: earlier) next later (congrArg (item :: ·) split)

/-! ### The edits of the handlers -/

theorem edits_del_both :
    Edits isup lean st ((st.del .members key).del .pending key) :=
  .trans (.single (.drop .members key)) (.single (.drop .pending key))

theorem edits_updateHalf (kept : ∀ member, (update member).nick = member.nick)
    (strict : lean → full) : Edits isup lean st (updateHalf full key update half st) := by
  unfold updateHalf
  cases found : (st.half half).lookup key with
  | none => exact .refl
  | some member =>
    dsimp only
    split
    · exact .refl
    next accepted =>
      exact .single (.rewrite found (kept member) fun shrinks =>
        not_lt.mp fun grows => accepted ⟨strict shrinks, grows⟩)

theorem edits_rekey (strict : lean → full) :
    Edits isup lean st (rekey isup full key nick half st) := by
  unfold rekey
  cases found : (st.half half).lookup key with
  | none => exact .refl
  | some =>
    dsimp only
    split
    · exact .refl
    next accepted =>
      exact .single (.rekey nick found fun shrinks =>
        not_lt.mp fun grows => accepted ⟨strict shrinks, grows⟩)

theorem memberBytes_status_le {status : Bytes} (shorter : status.length ≤ member.status.length) :
    memberBytes key { member with status } ≤ memberBytes key member := by
  unfold memberBytes
  dsimp only
  omega

theorem edits_applyStatus {change : StatusChange} (strict : lean → change.adding → full) :
    Edits isup lean st (applyStatus isup full change half st) := by
  unfold applyStatus
  cases found : (st.half half).lookup (foldKey isup change.nick) with
  | none => exact .refl
  | some member =>
    dsimp only
    split
    · exact .refl
    next accepted =>
      refine .single (.rewrite found rfl fun shrinks => memberBytes_status_le ?_)
      cases adding : change.adding with
      | true =>
        have short : ¬member.status.length < (change.apply isup member).status.length :=
          fun grows => accepted ⟨adding, grows, strict shrinks adding⟩
        simpa only [StatusChange.apply, adding, if_true, not_lt] using short
      | false =>
        rw [if_neg Bool.false_ne_true]
        exact length_removeLoop_le ..

/-! ### The moves of the handlers -/

/-- A JOIN finds room in the pending map: when the nick is new to a burst in flight and nothing else
keeps it out, the burst is below its ceiling. -/
def PendingRoom (limits : Limits) (roster : Roster) (st : ChannelState) (key : Bytes) : Prop :=
  ∀ pending, st.pending = some pending → pending.lookup key = none →
    overBytes limits roster = false →
    (roster.totalMembers + if (st.members.lookup key).isSome then 0 else 1)
      < limits.maxRosterMembers →
    ((st.members.lookup key).isSome ∨ st.members.size < limits.maxChannelMembers) →
    pending.size < limits.maxChannelMembers

def JoinFits (limits : Limits) (isup : ISupport) (roster : Roster) (line : IrcMessage) : Prop :=
  line.command = lit "JOIN" → ∀ st, roster.lookup (foldKey isup (line.param 0)) = some st →
    PendingRoom limits roster st (foldKey isup (senderOf line))

def GrantsRefused (limits : Limits) (isup : ISupport) (roster : Roster) (line : IrcMessage) :
    Prop :=
  ∀ earlier change later, statusChanges isup line = earlier ++ change :: later →
    change.adding = true →
    overBytes limits
      (earlier.foldl (applyStatusMode limits isup (foldKey isup (line.param 0))) roster) = true

theorem moves_setTopic {channel topic : Bytes} (strict : lean → overBytes limits roster = true) :
    Moves limits isup bounded lean roster (setTopic limits isup roster channel topic) := by
  refine .single (.ofModify _ _ fun st found => ?_)
  dsimp only
  split
  · exact .refl
  next accepted =>
    exact .single (.retopic _ fun shrinks =>
      not_lt.mp fun grows => accepted ⟨grows, strict shrinks⟩)

theorem moves_memberLeft (roster : Roster) (channel nick : Bytes) (ours : Bool) :
    Moves limits isup bounded lean roster (memberLeft isup roster channel nick ours) := by
  cases ours with
  | true => exact .single (.leave _)
  | false => exact .single (.ofModify _ _ fun _ _ => edits_del_both)

theorem moves_updateEverywhere (kept : ∀ member, (update member).nick = member.nick)
    (strict : lean → overBytes limits roster = true) :
    Moves limits isup bounded lean roster (updateEverywhere limits isup roster nick update) :=
  .single (.edit _ fun _ _ _ =>
    (edits_updateHalf kept strict).trans (edits_updateHalf kept strict))

theorem moves_applyStatusMode (channel : Bytes) (roster : Roster) (change : StatusChange)
    (strict : lean → change.adding → overBytes limits roster = true) :
    Moves limits isup bounded lean roster (applyStatusMode limits isup channel roster change) :=
  .single (.ofModify _ _ fun _ _ =>
    (edits_applyStatus strict).trans (edits_applyStatus strict))

theorem moves_channelMode (strict : lean → GrantsRefused limits isup roster line) :
    Moves limits isup bounded lean roster (channelMode limits isup roster line) :=
  Moves.ofFoldl _ fun earlier change later split =>
    moves_applyStatusMode _ _ change fun shrinks adding =>
      strict shrinks earlier change later split adding

/-! ### NAMES replies -/

theorem modify_modify (roster : Roster) (channel : Bytes)
    (first second : ChannelState → ChannelState) :
    (modify channel first roster).modify channel second =
      roster.modify channel fun st => second (first st) := by
  refine (mapEntries_mapEntries _ _ roster).trans (mapEntries_congr fun key st _ => ?_)
  split <;> rfl

theorem totalMembers_modify (tracked : roster.lookup channel = some st)
    (rewrite : ChannelState → ChannelState) :
    Roster.totalMembers (roster.modify channel rewrite) =
      roster.totalMembers - st.count + (rewrite st).count :=
  total_modify _ tracked rewrite

theorem count_put (st : ChannelState) (half : Half) (key : Bytes) (member : Member) :
    ((st.put half key member).count : Int) =
      st.count + if ((st.half half).lookup key).isSome then 0 else 1 := by
  have size := size_insert (st.half half) key member
  unfold ChannelState.count
  rw [half_put, half_put]
  cases half with
  | members | pending =>
    rw [if_pos rfl, if_neg (by decide)]
    push_cast
    omega

section

variable (tracked : roster.lookup channel = some st)
include tracked

theorem totalMembers_put
    (half : Half) (key : Bytes) (member : Member) :
    Roster.totalMembers (roster.modify channel (·.put half key member)) =
      roster.totalMembers + if ((st.half half).lookup key).isSome then 0 else 1 := by
  rw [totalMembers_modify tracked, count_put]
  omega

theorem lookup_modify_self
    (rewrite : ChannelState → ChannelState) :
    (roster.modify channel rewrite).lookup channel = some (rewrite st) := by
  rw [lookup_modify, if_pos rfl, tracked, map_some]

theorem modify_tracked
    (rewrite : ChannelState → ChannelState) :
    roster.modify channel rewrite = roster.modify channel fun _ => rewrite st := by
  refine mapEntries_congr fun key other found => ?_
  split
  next same =>
    rw [same, tracked] at found
    rw [some.inj found]
  · rfl

end

theorem modify_untracked (untracked : roster.lookup channel = none)
    (rewrite : ChannelState → ChannelState) : roster.modify channel rewrite = roster := by
  refine mapEntries_eq_self fun key st found => if_neg fun same => ?_
  rw [same, untracked] at found
  cases found

theorem modify_self (tracked : roster.lookup channel = some st) :
    (roster.modify channel fun _ => st) = roster :=
  (modify_tracked tracked id).symm.trans (mapEntries_eq_self fun _ other _ => ite_self other)

theorem moves_namesLoop (tracked : roster.lookup channel = some st)
    (left : budget = limits.maxRosterMembers - roster.totalMembers) (grows : ¬lean) :
    Moves limits isup bounded lean roster
      (roster.modify channel fun _ => namesLoop limits isup st budget bytesLeft raws) := by
  induction raws generalizing roster st budget bytesLeft with
  | nil => exact (modify_self tracked).symm ▸ .refl
  | cons raw _ ih =>
    rw [namesLoop]
    split
    · exact (modify_self tracked).symm ▸ .refl
    next room =>
      obtain ⟨below, _, -⟩ := not_or.mp room |>.imp_right not_or.mp
      have admitted : Move limits isup bounded lean roster
          (roster.modify channel (·.put .pending (isup.fold (namesMember isup raw).nick)
            (namesMember isup raw))) :=
        .accept .pending _ tracked (.inr (by omega)) (fun _ => .inr (not_le.mp below)) grows
      have spent := totalMembers_put tracked .pending (isup.fold (namesMember isup raw).nick)
        (namesMember isup raw)
      rw [← modify_modify roster channel (·.put .pending _ (namesMember isup raw)) fun _ => _]
      refine .head admitted (ih (lookup_modify_self tracked _) ?_)
      rw [spent, left]
      split <;> omega

theorem namesLoop_of_spent (spent : bytesLeft ≤ 0) :
    namesLoop limits isup st budget bytesLeft raws = st := by
  cases raws with
  | nil => rfl
  | cons => rw [namesLoop, if_pos (.inr (.inr spent))]

theorem moves_namesReply (strict : lean → overBytes limits roster = true) :
    Moves limits isup bounded lean roster (namesReply limits isup roster line) := by
  have collected : Move limits isup bounded lean roster
      (roster.modify (foldKey isup (line.param 2)) collectNames) :=
    .ofModify _ _ fun st _ => .single .collect
  by_cases full : overBytes limits roster = true
  · have spent : (limits.maxRosterBytes : Int) - roster.totalBytes ≤ 0 := by
      have reached : (limits.maxRosterBytes : Int) ≤ roster.totalBytes := of_decide_eq_true full
      omega
    have idle : namesReply limits isup roster line =
        roster.modify (foldKey isup (line.param 2)) collectNames := by
      unfold namesReply
      congr 1
      funext st
      exact namesLoop_of_spent spent
    exact idle ▸ .single collected
  · cases tracked : roster.lookup (foldKey isup (line.param 2)) with
    | none =>
      unfold namesReply
      rw [modify_untracked tracked]
    | some =>
      have kept : Roster.totalMembers (roster.modify (foldKey isup (line.param 2))
          collectNames) = roster.totalMembers := by
        rw [totalMembers_modify tracked]
        exact Int.sub_add_cancel ..
      unfold namesReply
      rw [modify_tracked tracked, ← modify_modify roster _ collectNames fun _ => _]
      refine .head collected (moves_namesLoop (lookup_modify_self tracked _) ?_ fun shrinks =>
        full (strict shrinks))
      rw [kept]

/-! ### JOIN -/

theorem joinChannel_eq_some {joined : Roster} {name : Bytes}
    (resolved : joinChannel limits isup roster name ours = some (joined, st)) :
    (joined = roster ∧ roster.lookup (isup.fold name) = some st) ∨
      (roster.lookup (isup.fold name) = none ∧ roster.size < limits.maxRosterChannels ∧
        st = { name } ∧ joined = roster.insert (isup.fold name) { name }) := by
  unfold joinChannel at resolved
  split at resolved
  next found =>
    cases resolved
    exact .inl ⟨rfl, found⟩
  next missing =>
    split at resolved
    · cases resolved
    next room =>
      cases resolved
      simp only [Bool.or_eq_true, decide_eq_true_eq, not_or, not_le] at room
      exact .inr ⟨missing, room.2, rfl, rfl⟩

theorem room_of_not_joinRefused (accepted : ¬joinRefused limits roster st key member = true) :
    (st.members.lookup key).isSome ∨ (st.members.size < limits.maxChannelMembers ∧
        roster.totalMembers < limits.maxRosterMembers) := by
  unfold joinRefused at accepted
  cases known : st.members.lookup key with
  | some => exact .inl rfl
  | none =>
    rw [known] at accepted
    simp only [Bool.or_eq_true, decide_eq_true_eq, not_or, not_le] at accepted
    exact .inr accepted.1

theorem moves_admitJoin {sender : Bytes}
    (tracked : roster.lookup (foldKey isup (line.param 0)) = some st)
    (fits : bounded → PendingRoom limits roster st (foldKey isup sender)) (grows : ¬lean) :
    Moves limits isup bounded lean roster (admitJoin limits isup roster st line sender) := by
  unfold admitJoin
  refine iteInduction (motive := Moves limits isup bounded lean roster) (fun _ => .refl)
    fun accepted => ?_
  have room := room_of_not_joinRefused accepted
  have first : Move limits isup bounded lean roster
      (roster.modify (foldKey isup (line.param 0)) (·.put .members (foldKey isup sender)
        (joinMember line (clampRoster sender)))) :=
    .accept .members (joinMember line (clampRoster sender)) tracked (room.imp_right (·.2))
      (fun _ => room.imp_right (·.1)) grows
  refine iteInduction (motive := Moves limits isup bounded lean roster) (fun again => ?_)
    fun _ => .single first
  have other : ((st.put .members (foldKey isup sender)
      (joinMember line (clampRoster sender))).half .pending) = st.half .pending :=
    half_put ..
  simp only [Bool.and_eq_true, Bool.or_eq_true, decide_eq_true_eq, Bool.not_eq_true'] at again
  obtain ⟨burst, again⟩ := again
  refine .head first (.single (.accept .pending (joinMember line (clampRoster sender))
    (lookup_modify_self tracked _) ?_ ?_ grows))
  · rw [other]
    exact again.imp_right (·.1)
  · intro strict
    rw [other]
    obtain ⟨pending, collected⟩ := isSome_iff_exists.mp burst
    have held : st.half .pending = pending := congrArg (·.getD ∅) collected
    rw [held] at again ⊢
    refine or_iff_not_imp_left.mpr fun missing => ?_
    obtain ⟨below, light⟩ := again.resolve_left missing
    rw [totalMembers_put tracked] at below
    exact fits strict pending collected (not_isSome_iff_eq_none.mp missing) light below
      (room.imp_right (·.1))

theorem moves_memberJoin (command : line.command = lit "JOIN")
    (fits : bounded → JoinFits limits isup roster line) (grows : ¬lean) :
    Moves limits isup bounded lean roster
      (memberJoin limits isup roster line (senderOf line) ours) := by
  unfold memberJoin
  cases resolved : joinChannel limits isup roster (clampRoster (line.param 0)) ours with
  | none => exact .refl
  | some found =>
    obtain ⟨_, st⟩ := found
    rcases joinChannel_eq_some resolved with ⟨rfl, tracked⟩ | ⟨fresh, room, rfl, rfl⟩
    · exact moves_admitJoin tracked (fun strict => fits strict command st tracked) grows
    · refine .head (.create _ fresh room) (moves_admitJoin ?_ (fun _ pending missing => ?_) grows)
      · exact AList.lookup_insert _
      · cases missing

/-! ### Any line -/

def Restrained (limits : Limits) (isup : ISupport) (roster : Roster) (line : IrcMessage) : Prop :=
  overBytes limits roster = true ∧ line.command ≠ lit "JOIN" ∧
    (line.command = lit "MODE" → GrantsRefused limits isup roster line)

theorem moves_handle (ourNick : Bytes) (roster : Roster) (line : IrcMessage)
    (fits : bounded → JoinFits limits isup roster line)
    (restrained : lean → Restrained limits isup roster line) :
    Moves limits isup bounded lean roster (roster.handle limits isup ourNick line) := by
  have full : lean → overBytes limits roster = true := fun shrinks => (restrained shrinks).1
  have ite {test : Prop} [Decidable test] {first second : Roster} :=
    iteInduction (c := test) (t := first) (e := second)
      (motive := Moves limits isup bounded lean roster)
  unfold Roster.handle
  refine ite (fun _ => moves_namesReply full) fun _ => ?_
  refine ite (fun _ => .single (.ofModify _ _ fun st _ => .single .swap)) fun _ => ?_
  refine ite (fun _ => moves_setTopic full) fun _ => ?_
  refine ite (fun _ => moves_setTopic full) fun _ => ?_
  refine ite (fun _ => moves_setTopic full) fun _ => ?_
  refine ite (fun join => moves_memberJoin join fits fun shrinks =>
    (restrained shrinks).2.1 join) fun _ => ?_
  refine ite (fun _ => Moves.ofFoldl _ fun earlier channel later _ =>
    moves_memberLeft _ channel _ _) fun _ => ?_
  refine ite (fun _ => Moves.ofFoldl _ fun earlier kick later _ =>
    moves_memberLeft _ kick.1 kick.2 _) fun _ => ?_
  refine ite (fun _ => .single (.edit _ fun _ st _ => edits_del_both)) fun _ => ?_
  refine ite (fun _ => .single (.edit _ fun _ _ _ =>
    (edits_rekey full).trans (edits_rekey full))) fun _ => ?_
  refine ite (fun _ => moves_updateEverywhere (fun _ => rfl) full) fun _ => ?_
  refine ite (fun _ => moves_updateEverywhere (fun _ => rfl) full) fun _ => ?_
  refine ite (fun _ => moves_updateEverywhere (fun _ => rfl) full) fun _ => ?_
  refine ite (fun _ => ite (fun _ => .refl) fun _ =>
    moves_updateEverywhere (fun _ => rfl) full) fun _ => ?_
  exact ite (fun mode => moves_channelMode fun shrinks =>
    (restrained shrinks).2.2 mode) fun _ => .refl

end Moves

end Ircthing.Irc
