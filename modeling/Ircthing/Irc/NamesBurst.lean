/-
This file proves that a line that races the end of a NAMES burst does the same on either side of it.
-/

import Ircthing.Irc.RosterRuns

namespace Ircthing.Irc

open Library Relation List Option AList Dict ChannelState

variable {key nick account topic : Bytes} {map members pending other : Dict Bytes Member}
  {member : Member} {st : ChannelState} {operation : Dict Bytes Member → Dict Bytes Member}
  {half : Half} {isup : ISupport} {update : Member → Member} {away : Bool}

/-! ### The merge of two maps -/

variable (members pending)

def mergeMaps : Dict Bytes Member :=
  pending.mapEntries fun key member => mergeKnown (members.lookup key) member

def updateAt (key : Bytes) (update : Member → Member) (map : Dict Bytes Member) :
    Dict Bytes Member :=
  match map.lookup key with
  | none => map
  | some member => map.insert key (update member)

theorem updateAt_of_none (missing : map.lookup key = none) (update : Member → Member) :
    updateAt key update map = map := by
  rw [updateAt, missing]

theorem updateAt_of_some (found : map.lookup key = some member) (update : Member → Member) :
    updateAt key update map = map.insert key (update member) := by
  rw [updateAt, found]

def rekeyAt (isup : ISupport) (key nick : Bytes) (map : Dict Bytes Member) : Dict Bytes Member :=
  match map.lookup key with
  | none => map
  | some member => (map.erase key).insert (isup.fold nick) { member with nick }

theorem rekeyAt_of_none (missing : map.lookup key = none) (nick : Bytes) :
    rekeyAt isup key nick map = map := by
  rw [rekeyAt, missing]

theorem rekeyAt_of_some (found : map.lookup key = some member) (nick : Bytes) :
    rekeyAt isup key nick map =
      (map.erase key).insert (isup.fold nick) { member with nick } := by
  rw [rekeyAt, found]

variable (operation)

def Passes (members pending : Dict Bytes Member) : Prop :=
  mergeMaps (operation members) (operation pending) = operation (mergeMaps members pending)

theorem lookup_mergeMaps (key : Bytes) :
    (mergeMaps members pending).lookup key =
      (pending.lookup key).map (mergeKnown (members.lookup key)) :=
  lookup_mapEntries ..

variable {members pending}

theorem mergeMaps_congr (agree : ∀ key member, pending.lookup key = some member →
      members.lookup key = other.lookup key) :
    mergeMaps members pending = mergeMaps other pending :=
  mapEntries_congr fun key member found => by rw [agree key member found]

theorem erase_mergeMaps (members pending : Dict Bytes Member) (key : Bytes) :
    (mergeMaps members pending).erase key = mergeMaps members (pending.erase key) :=
  erase_mapEntries ..

theorem mergeMaps_insert (members pending : Dict Bytes Member) (key : Bytes) (member : Member) :
    mergeMaps members (pending.insert key member) =
      (mergeMaps members pending).insert key (mergeKnown (members.lookup key) member) :=
  mapEntries_insert ..

theorem insert_mergeMaps_congr
    (agree : ∀ place, place ≠ key → members.lookup place = other.lookup place) :
    (mergeMaps members pending).insert key member =
      (mergeMaps other pending).insert key member := by
  have erased : (mergeMaps members pending).erase key = (mergeMaps other pending).erase key := by
    rw [erase_mergeMaps, erase_mergeMaps]
    refine mergeMaps_congr fun place held found => agree place fun same => ?_
    rw [same, lookup_erase] at found
    cases found
  refine ext ?_
  show _ :: ((mergeMaps members pending).erase key).entries = _ :: _
  rw [erased]
  rfl

/-! ### Operations that pass through the merge -/

theorem passes_erase :
    Passes (erase key) members pending := by
  unfold Passes
  rw [erase_mergeMaps]
  refine mergeMaps_congr fun place held found => lookup_erase_ne fun same => ?_
  rw [same, lookup_erase] at found
  cases found

theorem mergeKnown_self (member : Member) : mergeKnown (some member) member = member := by
  unfold mergeKnown
  dsimp only
  split <;> rfl

theorem passes_insert :
    Passes (insert key member) members pending := by
  unfold Passes
  rw [mergeMaps_insert, lookup_insert, mergeKnown_self]
  exact insert_mergeMaps_congr (fun place different => lookup_insert_ne different)

def UpdateMerges (update : Member → Member) : Prop :=
  ∀ old member, mergeKnown (some (update old)) (update member) =
    update (mergeKnown (some old) member)

theorem lookup_updateAt (key place : Bytes) (update : Member → Member) (map : Dict Bytes Member) :
    (updateAt key update map).lookup place =
      if place = key then (map.lookup place).map update else map.lookup place := by
  cases found : map.lookup key with
  | none =>
    rw [updateAt_of_none found]
    split
    next same =>
      rw [same, found]
      rfl
    · rfl
  | some =>
    rw [updateAt_of_some found, lookup_insert_eq]
    split
    next same =>
      rw [same, found]
      rfl
    · rfl

theorem passes_updateAt (merges : UpdateMerges update) :
    Passes (updateAt key update) members pending := by
  unfold Passes
  have agree : ∀ place, place ≠ key →
      (updateAt key update members).lookup place = members.lookup place := fun place different => by
    rw [lookup_updateAt, if_neg different]
  cases found : pending.lookup key with
  | none =>
    have merged : (mergeMaps members pending).lookup key = none := by
      rw [lookup_mergeMaps, found]
      rfl
    rw [updateAt_of_none found, updateAt_of_none merged]
    refine mergeMaps_congr fun place held collected => agree place fun same => ?_
    rw [same, found] at collected
    cases collected
  | some member =>
    have merged : (mergeMaps members pending).lookup key =
        some (mergeKnown (members.lookup key) member) := by
      rw [lookup_mergeMaps, found]
      rfl
    have same : mergeKnown ((updateAt key update members).lookup key) (update member) =
        update (mergeKnown (members.lookup key) member) := by
      rw [lookup_updateAt, if_pos rfl]
      cases members.lookup key with
      | none => rfl
      | some old => exact merges old member
    rw [updateAt_of_some found, updateAt_of_some merged, mergeMaps_insert, same]
    exact insert_mergeMaps_congr agree

theorem mergeKnown_rename (known : Option Member) (member : Member) (nick : Bytes) :
    mergeKnown (known.map fun old => { old with nick }) { member with nick } =
      { mergeKnown known member with nick } := by
  unfold mergeKnown
  cases known with
  | none => rfl
  | some =>
    dsimp only [map_some]
    split <;> rfl

theorem lookup_rekeyAt (free : isup.fold nick ≠ key → map.lookup (isup.fold nick) = none) :
    (rekeyAt isup key nick map).lookup (isup.fold nick) =
        (map.lookup key).map (fun old => { old with nick }) ∧
      ∀ place, place ≠ key → place ≠ isup.fold nick →
        (rekeyAt isup key nick map).lookup place = map.lookup place := by
  cases found : map.lookup key with
  | none =>
    rw [rekeyAt_of_none found]
    refine ⟨?_, fun _ _ _ => rfl⟩
    by_cases same : isup.fold nick = key
    · rw [same, found]
      rfl
    · exact free same
  | some =>
    rw [rekeyAt_of_some found]
    refine ⟨lookup_insert _, fun place different elsewhere => ?_⟩
    rw [lookup_insert_ne elsewhere, lookup_erase_ne different]

theorem passes_rekeyAt (freeMembers : isup.fold nick ≠ key → members.lookup (isup.fold nick) = none)
    (freePending : isup.fold nick ≠ key → pending.lookup (isup.fold nick) = none) :
    Passes (rekeyAt isup key nick) members pending := by
  unfold Passes
  obtain ⟨moved, agree⟩ := lookup_rekeyAt freeMembers
  -- a key of the burst other than the moved one is neither of the two keys
  have away : ∀ place held, (pending.erase key).lookup place = some held →
      (rekeyAt isup key nick members).lookup place = members.lookup place := by
    intro place held collected
    have different : place ≠ key := fun same => by
      rw [same, lookup_erase] at collected
      cases collected
    rw [lookup_erase_ne different] at collected
    refine agree place different fun same => ?_
    rw [← same] at freePending
    rw [freePending different] at collected
    cases collected
  cases found : pending.lookup key with
  | none =>
    have merged : (mergeMaps members pending).lookup key = none := by
      rw [lookup_mergeMaps, found]
      rfl
    rw [rekeyAt_of_none found, rekeyAt_of_none merged]
    refine mergeMaps_congr fun place held collected => away place held ?_
    rw [lookup_erase_ne]
    · exact collected
    · rintro rfl
      rw [found] at collected
      cases collected
  | some member =>
    have merged : (mergeMaps members pending).lookup key =
        some (mergeKnown (members.lookup key) member) := by
      rw [lookup_mergeMaps, found]
      rfl
    rw [rekeyAt_of_some found, rekeyAt_of_some merged, mergeMaps_insert, erase_mergeMaps, moved,
      mergeKnown_rename, mergeMaps_congr away]

/-! ### Operations on a channel -/

structure Done (st next : ChannelState) :
    Prop where
  exact : next.Exact
  name : next.name = st.name
  topic : next.topic = st.topic
  members : next.members = operation st.members
  pending : next.pending = st.pending.map operation

theorem eq_of_exact {first second : ChannelState} (exactFirst : first.Exact)
    (exactSecond : second.Exact) (name : first.name = second.name)
    (topic : first.topic = second.topic) (members : first.members = second.members)
    (pending : first.pending = second.pending) : first = second := by
  have half : ∀ half, first.half half = second.half half := by
    rintro (_ | _)
    · exact members
    · exact congrArg (·.getD ∅) pending
  have bytes : first.bytes = second.bytes := by
    rw [show first.bytes = _ from exactFirst, show second.bytes = _ from exactSecond]
    unfold countedBytes
    rw [topic, half, half]
  cases first
  cases second
  simp_all only

theorem swapNames_of_burst (burst : st.pending = some pending) :
    st.swapNames =
      { st with
        members := mergeMaps st.members pending
        pending := none }.recomputeBytes := by
  unfold swapNames
  rw [burst]
  rfl

variable {operation}

theorem swapNames_done {before after : ChannelState} (first : Done operation st before)
    (second : Done operation st.swapNames after)
    (passes : ∀ pending, st.pending = some pending → Passes operation st.members pending) :
    before.swapNames = after := by
  cases burst : st.pending with
  | none =>
    have idle : before.pending = none := by rw [first.pending, burst, map_none]
    rw [st.swapNames_of_idle burst] at second
    rw [before.swapNames_of_idle idle]
    exact eq_of_exact first.exact second.exact (first.name.trans second.name.symm)
      (first.topic.trans second.topic.symm) (first.members.trans second.members.symm)
      (first.pending.trans second.pending.symm)
  | some pending =>
    have collected : before.pending = some (operation pending) := by
      rw [first.pending, burst, map_some]
    have swapped := swapNames_of_burst collected
    rw [swapNames_of_burst burst] at second
    refine eq_of_exact first.exact.swapNames second.exact ?_ ?_ ?_ ?_
    · rw [swapped, second.name]
      exact first.name
    · rw [swapped, second.topic]
      exact first.topic
    · rw [swapped, second.members]
      rw [first.members]
      exact passes pending burst
    · rw [swapped, second.pending]
      rfl

/-! ### What the handlers do -/

structure DoneHalf (operation : Dict Bytes Member → Dict Bytes Member) (half : Half)
    (st next : ChannelState) : Prop where
  exact : next.Exact
  name : next.name = st.name
  topic : next.topic = st.topic
  burst : next.pending.isSome = st.pending.isSome
  half : ∀ other, next.half other =
    if other = half ∧ (half = .pending → st.pending.isSome) then operation (st.half half)
    else st.half other

theorem DoneHalf.done {middle next : ChannelState} (first : DoneHalf operation .members st middle)
    (second : DoneHalf operation .pending middle next) : Done operation st next where
  exact := second.exact
  name := second.name.trans first.name
  topic := second.topic.trans first.topic
  members := by
    have kept := second.half .members
    have changed := first.half .members
    rw [if_neg (by simp)] at kept
    rw [if_pos (by simp)] at changed
    exact kept.trans changed
  pending := by
    have kept := first.half .pending
    have changed := second.half .pending
    rw [if_neg (by simp)] at kept
    rw [kept, first.burst] at changed
    cases burst : st.pending with
    | none =>
      have none_ := second.burst.trans first.burst
      rw [burst, isSome_none, isSome_eq_false_iff, isNone_iff_eq_none] at none_
      exact none_
    | some pending =>
      have some_ := second.burst.trans first.burst
      rw [burst, isSome_some] at some_
      obtain ⟨map, held⟩ := isSome_iff_exists.mp some_
      rw [if_pos (by rw [burst]; simp), show st.half .pending = pending from
        congrArg (·.getD ∅) burst, show next.half .pending = map from
        congrArg (·.getD ∅) held] at changed
      rw [held, changed]
      rfl

theorem isSome_pending_of_lookup (found : (st.half half).lookup key = some member)
    (pending : half = .pending) : st.pending.isSome := by
  subst pending
  change (st.pending.getD ∅).lookup key = some member at found
  cases burst : st.pending with
  | none =>
    rw [burst] at found
    cases found
  | some => rfl

theorem isSome_pending_put (there : half = .pending → st.pending.isSome) (key : Bytes)
    (member : Member) : (st.put half key member).pending.isSome = st.pending.isSome := by
  cases half with
  | members => rfl
  | pending => exact (there rfl).symm

theorem isSome_pending_del :
    (st.del half key).pending.isSome = st.pending.isSome := by
  cases found : (st.half half).lookup key with
  | none => rw [del, found]
  | some =>
    rw [del, found]
    cases half with
    | members => rfl
    | pending => exact (isSome_pending_of_lookup found rfl).symm

theorem DoneHalf.unchanged (exact_ : st.Exact) (fixed : operation (st.half half) = st.half half) :
    DoneHalf operation half st st where
  exact := exact_
  name := rfl
  topic := rfl
  burst := rfl
  half other := by
    split
    next changed =>
      rw [changed.1, fixed]
    · rfl

theorem DoneHalf.put (exact_ : st.Exact) (there : half = .pending → st.pending.isSome)
    (stored : operation (st.half half) = (st.half half).insert key member) :
    DoneHalf operation half st (st.put half key member) where
  exact := exact_.put half key member
  name := st.name_put half key member
  topic := st.topic_put half key member
  burst := isSome_pending_put there key member
  half other := by
    rw [half_put]
    by_cases same : other = half
    · rw [if_pos same, if_pos ⟨same, there⟩, stored]
    · rw [if_neg same, if_neg fun changed => same changed.1]

theorem erase_of_lookup_eq_none (missing : map.lookup key = none) : map.erase key = map :=
  ext (kerase_of_notMem_keys (lookup_eq_none.mp missing))

theorem doneHalf_del (exact_ : st.Exact) (half : Half) (key : Bytes) :
    DoneHalf (erase key) half st (st.del half key) := by
  cases found : (st.half half).lookup key with
  | none =>
    have same : st.del half key = st := by rw [del, found]
    rw [same]
    exact .unchanged exact_ (erase_of_lookup_eq_none found)
  | some =>
    have there := isSome_pending_of_lookup found
    refine ⟨exact_.del half key, st.name_del half key, st.topic_del half key,
      isSome_pending_del, fun other => ?_⟩
    rw [half_del]
    by_cases same : other = half
    · rw [if_pos same, if_pos ⟨same, there⟩]
    · rw [if_neg same, if_neg fun changed => same changed.1]

theorem doneHalf_updateHalf (exact_ : st.Exact) (half : Half) (key : Bytes)
    (update : Member → Member) :
    DoneHalf (updateAt key update) half st (updateHalf false key update half st) := by
  cases found : (st.half half).lookup key with
  | none =>
    rw [updateHalf, found]
    exact .unchanged exact_ (updateAt_of_none found update)
  | some =>
    rw [updateHalf, found]
    dsimp only
    rw [if_neg fun refused => Bool.false_ne_true refused.1]
    exact .put exact_ (isSome_pending_of_lookup found) (updateAt_of_some found update)

theorem doneHalf_rekey (isup : ISupport) (exact_ : st.Exact) (half : Half) (key nick : Bytes) :
    DoneHalf (rekeyAt isup key nick) half st (rekey isup false key nick half st) := by
  cases found : (st.half half).lookup key with
  | none =>
    rw [rekey, found]
    exact .unchanged exact_ (rekeyAt_of_none found nick)
  | some =>
    rw [rekey, found]
    dsimp only
    rw [if_neg fun refused => Bool.false_ne_true refused.1]
    have erased := doneHalf_del exact_ half key
    have there := isSome_pending_of_lookup found
    have there' : half = .pending → (st.del half key).pending.isSome := fun pending =>
      erased.burst.trans (there pending)
    refine ⟨erased.exact.put _ _ _, ?_, ?_, ?_, fun other => ?_⟩
    · rw [name_put, erased.name]
    · rw [topic_put, erased.topic]
    · rw [isSome_pending_put there', erased.burst]
    · rw [half_put, erased.half, erased.half, rekeyAt_of_some found]
      by_cases same : other = half
      · rw [if_pos same, if_pos ⟨rfl, there⟩, if_pos ⟨same, there⟩]
      · rw [if_neg same, if_neg fun changed => same changed.1, if_neg fun changed => same changed.1]

theorem applyStatus_false (isup : ISupport) (change : StatusChange) (half : Half)
    (st : ChannelState) :
    applyStatus isup false change half st =
      updateHalf false (foldKey isup change.nick) (change.apply isup) half st := by
  unfold applyStatus updateHalf
  cases (st.half half).lookup (foldKey isup change.nick) with
  | none => rfl
  | some =>
    dsimp only
    rw [if_neg fun refused => Bool.false_ne_true refused.2.2,
      if_neg fun refused => Bool.false_ne_true refused.1]

/-! ### The end of a burst -/

def finishNames (channel : Bytes) (roster : Roster) : Roster :=
  roster.modify channel swapNames

section Commutes

variable {limits : Limits} {isup : ISupport} {roster : Roster} {channel : Bytes}
  {inFlight : ChannelState}
variable {st : ChannelState} {line : IrcMessage}

abbrev ExactBytes (roster : Roster) : Prop := Each (fun _ st => st.Exact) roster

theorem finishNames_mapEntries {rewrite : Bytes → ChannelState → ChannelState}
    (commutes : ∀ st, roster.lookup channel = some st →
      (rewrite channel st).swapNames = rewrite channel st.swapNames) :
    finishNames channel (roster.mapEntries rewrite) =
      (finishNames channel roster).mapEntries rewrite := by
  unfold finishNames Dict.modify
  rw [mapEntries_mapEntries, mapEntries_mapEntries]
  refine mapEntries_congr fun key st found => ?_
  by_cases same : key = channel
  · subst same
    rw [if_pos rfl, if_pos rfl]
    exact commutes st found
  · rw [if_neg same, if_neg same]

theorem finishNames_modify {other : Bytes} {rewrite : ChannelState → ChannelState}
    (commutes : ∀ st, roster.lookup channel = some st → channel = other →
      (rewrite st).swapNames = rewrite st.swapNames) :
    finishNames channel (roster.modify other rewrite) =
      (finishNames channel roster).modify other rewrite := by
  refine finishNames_mapEntries fun st found => ?_
  by_cases same : channel = other
  · rw [if_pos same, if_pos same]
    exact commutes st found same
  · rw [if_neg same, if_neg same]

theorem finishNames_erase {other : Bytes} :
    finishNames channel (roster.erase other) = (finishNames channel roster).erase other :=
  (erase_mapEntries ..).symm

theorem finishNames_move (limits : Limits) (isup : ISupport) (bounded lean : Prop) (channel : Bytes)
    (roster : Roster) : Move limits isup bounded lean roster (finishNames channel roster) :=
  .ofModify _ _ fun _ _ => .single .swap

theorem finishNames_foldl {Item : Type} {step : Roster → Item → Roster} {items : List Item}
    (each : ∀ earlier item later, items = earlier ++ item :: later →
      finishNames channel (step (earlier.foldl step roster) item) =
        step (finishNames channel (earlier.foldl step roster)) item) :
    finishNames channel (items.foldl step roster) =
      items.foldl step (finishNames channel roster) := by
  induction items generalizing roster with
  | nil => rfl
  | cons item rest ih =>
    have first := each [] item rest rfl
    rw [foldl_nil] at first
    rw [foldl_cons, foldl_cons, ← first]
    refine ih fun earlier next later split => ?_
    exact each (item :: earlier) next later (congrArg (item :: ·) split)

theorem overBytes_finishNames (exact_ : ExactBytes roster)
    (light : overBytes limits roster = false) :
    overBytes limits (finishNames channel roster) = false := by
  have smaller := (finishNames_move limits {} False True channel roster).totalBytes_le exact_
  unfold overBytes at light ⊢
  rw [decide_eq_false_iff_not, not_le] at light ⊢
  exact smaller.trans_lt light

theorem swapNames_del (exact_ : st.Exact) :
    ((st.del .members key).del .pending key).swapNames =
      (st.swapNames.del .members key).del .pending key := by
  have done : ∀ st : ChannelState, st.Exact →
      Done (erase key) st ((st.del .members key).del .pending key) := fun st exact_ =>
    (doneHalf_del exact_ .members key).done (doneHalf_del (exact_.del .members key) .pending key)
  exact swapNames_done (done st exact_) (done _ exact_.swapNames) fun pending _ => passes_erase

theorem swapNames_update (exact_ : st.Exact) (merges : UpdateMerges update) :
    (updateHalf false key update .pending (updateHalf false key update .members st)).swapNames =
      updateHalf false key update .pending (updateHalf false key update .members st.swapNames) := by
  have done : ∀ st : ChannelState, st.Exact → Done (updateAt key update) st
      (updateHalf false key update .pending (updateHalf false key update .members st)) := by
    intro st exact_
    have first := doneHalf_updateHalf exact_ .members key update
    exact first.done (doneHalf_updateHalf first.exact .pending key update)
  exact swapNames_done (done st exact_) (done _ exact_.swapNames)
    fun pending _ => passes_updateAt merges

theorem swapNames_rekey (exact_ : st.Exact)
    (free : isup.fold nick ≠ key → ∀ half, (st.half half).lookup (isup.fold nick) = none) :
    (rekey isup false key nick .pending (rekey isup false key nick .members st)).swapNames =
      rekey isup false key nick .pending (rekey isup false key nick .members st.swapNames) := by
  have done : ∀ st : ChannelState, st.Exact → Done (rekeyAt isup key nick) st
      (rekey isup false key nick .pending (rekey isup false key nick .members st)) := by
    intro st exact_
    have first := doneHalf_rekey isup exact_ .members key nick
    exact first.done (doneHalf_rekey isup first.exact .pending key nick)
  refine swapNames_done (done st exact_) (done _ exact_.swapNames) fun pending burst =>
    passes_rekeyAt (fun moved => free moved .members) fun moved => ?_
  rw [← show st.half .pending = pending from congrArg (·.getD ∅) burst]
  exact free moved .pending

theorem swapNames_retopic (exact_ : st.Exact) :
    (st.retopic topic).swapNames = st.swapNames.retopic topic := by
  cases burst : st.pending with
  | none =>
    rw [st.swapNames_of_idle burst]
    exact swapNames_of_idle _ burst
  | some pending =>
    have same : (st.retopic topic).pending = some pending := burst
    refine eq_of_exact (exact_.retopic topic).swapNames (exact_.swapNames.retopic topic) ?_ ?_ ?_ ?_
    all_goals
      rw [swapNames_of_burst burst, swapNames_of_burst same]
      rfl

/-! ### The handlers and the end of a burst -/

theorem finishNames_memberLeft (exact_ : ExactBytes roster) (other nick : Bytes) (ours : Bool) :
    finishNames channel (memberLeft isup roster other nick ours) =
      memberLeft isup (finishNames channel roster) other nick ours := by
  cases ours with
  | true => exact finishNames_erase
  | false =>
    exact finishNames_modify fun st found _ => swapNames_del (exact_ channel st found)

theorem finishNames_updateEverywhere (exact_ : ExactBytes roster)
    (light : overBytes limits roster = false) (merges : UpdateMerges update) :
    finishNames channel (updateEverywhere limits isup roster nick update) =
      updateEverywhere limits isup (finishNames channel roster) nick update := by
  unfold updateEverywhere
  rw [light, overBytes_finishNames exact_ light]
  exact finishNames_mapEntries fun st found =>
    swapNames_update (exact_ channel st found) merges

theorem finishNames_rename (exact_ : ExactBytes roster) (light : overBytes limits roster = false)
    {old new : Bytes} (free : foldKey isup new ≠ foldKey isup old → ∀ st half,
      roster.lookup channel = some st → (st.half half).lookup (foldKey isup new) = none) :
    finishNames channel (rename limits isup roster old new) =
      rename limits isup (finishNames channel roster) old new := by
  unfold rename
  rw [light, overBytes_finishNames exact_ light]
  exact finishNames_mapEntries fun st found =>
    swapNames_rekey (exact_ channel st found) fun moved half => free moved st half found

theorem finishNames_setTopic (exact_ : ExactBytes roster)
    (light : overBytes limits roster = false) {other : Bytes} :
    finishNames channel (setTopic limits isup roster other topic) =
      setTopic limits isup (finishNames channel roster) other topic := by
  unfold setTopic
  rw [light, overBytes_finishNames exact_ light]
  refine finishNames_modify fun st found _ => ?_
  rw [if_neg fun refused => Bool.false_ne_true refused.2,
    if_neg fun refused => Bool.false_ne_true refused.2]
  exact swapNames_retopic (exact_ channel st found)

theorem merges_statusChange {change : StatusChange} : UpdateMerges (change.apply isup) := by
  intro old member
  unfold mergeKnown StatusChange.apply
  dsimp only
  split <;> rfl

theorem merges_away : UpdateMerges fun member => { member with away } := by
  intro old member
  unfold mergeKnown
  dsimp only
  split <;> rfl

theorem merges_account :
    UpdateMerges fun member => { member with account } := by
  intro old member
  unfold mergeKnown
  dsimp only
  split <;> rfl

theorem merges_whox {bot : Bool} :
    UpdateMerges fun member => { member with away, account, bot } := by
  intro old member
  unfold mergeKnown
  dsimp only
  split <;> rfl

theorem merges_host {user host : Bytes} :
    UpdateMerges fun member => { member with user, host } := by
  intro old member
  unfold mergeKnown
  dsimp only
  split <;> split <;> rfl

theorem finishNames_applyStatusMode (exact_ : ExactBytes roster)
    (light : overBytes limits roster = false) (other : Bytes) (change : StatusChange) :
    finishNames channel (applyStatusMode limits isup other roster change) =
      applyStatusMode limits isup other (finishNames channel roster) change := by
  unfold applyStatusMode
  rw [light, overBytes_finishNames exact_ light]
  refine finishNames_modify fun st found _ => ?_
  rw [applyStatus_false, applyStatus_false, applyStatus_false, applyStatus_false]
  exact swapNames_update (exact_ channel st found) merges_statusChange

/-! ### JOIN and the end of a burst -/

def ChannelState.joinBoth (key : Bytes) (member : Member) (st : ChannelState) : ChannelState :=
  if st.pending.isSome then (st.put .members key member).put .pending key member
  else st.put .members key member

theorem done_joinBoth (exact_ : st.Exact) :
    Done (insert key member) st (st.joinBoth key member) := by
  have first : DoneHalf (insert key member) .members st (st.put .members key member) :=
    .put exact_ nofun rfl
  unfold joinBoth
  split
  next burst =>
    exact first.done (.put first.exact (fun _ => first.burst.trans burst) rfl)
  next idle =>
    refine first.done ⟨first.exact, rfl, rfl, rfl, fun other => ?_⟩
    rw [if_neg fun changed => idle (first.burst.symm.trans (changed.2 rfl))]

structure JoinRoom (limits : Limits) (roster : Roster) (st : ChannelState) (key : Bytes) :
    Prop where
  light : overBytes limits roster = false
  cap : st.members.size < limits.maxChannelMembers
  members : roster.totalMembers < limits.maxRosterMembers
  copy : st.pending.isSome → st.members.lookup key = none →
    roster.totalMembers + 1 < limits.maxRosterMembers

theorem admitJoin_of_room {sender : Bytes}
    (tracked : roster.lookup (foldKey isup (line.param 0)) = some st)
    (room : JoinRoom limits roster st (foldKey isup sender)) :
    admitJoin limits isup roster st line sender =
      roster.modify (foldKey isup (line.param 0))
        (joinBoth (foldKey isup sender) (joinMember line (clampRoster sender))) := by
  unfold admitJoin
  generalize foldKey isup sender = key at room
  generalize joinMember line (clampRoster sender) = member
  have accepted : ¬joinRefused limits roster st key member = true := by
    unfold joinRefused
    rw [room.light]
    cases st.members.lookup key with
    | none =>
      simp only [Bool.or_false, Bool.or_eq_true, decide_eq_true_eq, not_or, not_le]
      exact ⟨room.cap, room.members⟩
    | some => exact Bool.false_ne_true
  have counted := totalMembers_put tracked .members key member
  dsimp only
  rw [if_neg accepted, room.light, modify_tracked tracked (joinBoth key member)]
  unfold joinBoth
  cases burst : st.pending.isSome with
  | false =>
    rw [Bool.false_and, if_neg Bool.false_ne_true, if_neg Bool.false_ne_true]
    exact modify_tracked tracked _
  | true =>
    have below : Roster.totalMembers (roster.modify (foldKey isup (line.param 0))
        (·.put .members key member)) < limits.maxRosterMembers := by
      rw [counted]
      split
      · exact (add_zero _).trans_lt room.members
      next missing =>
        exact room.copy burst (not_isSome_iff_eq_none.mp missing)
    rw [decide_eq_true below, Bool.not_false, Bool.and_true, Bool.or_true, Bool.and_true,
      if_pos rfl, if_pos rfl, modify_modify]
    exact modify_tracked tracked _

/-- The ceilings that a line must find unreached: those of the roster and its channels, for a JOIN
also once its member is stored, and for a MODE also after each of its changes. -/
structure BelowCeilings (limits : Limits) (isup : ISupport) (roster : Roster)
    (line : IrcMessage) : Prop where
  bytes : roster.totalBytes < limits.maxRosterBytes
  members : roster.totalMembers < limits.maxRosterMembers
  channels : ∀ channel st, roster.lookup channel = some st →
    ∀ half, (st.half half).size < limits.maxChannelMembers
  copy : line.command = lit "JOIN" → ∀ st,
    roster.lookup (foldKey isup (line.param 0)) = some st →
    st.members.lookup (foldKey isup (senderOf line)) = none →
    roster.totalMembers + 1 < limits.maxRosterMembers
  grants : line.command = lit "MODE" → ∀ earlier change later,
    statusChanges isup line = earlier ++ change :: later →
    Roster.totalBytes
      (earlier.foldl (applyStatusMode limits isup (foldKey isup (line.param 0))) roster) <
      limits.maxRosterBytes

theorem overBytes_eq_false (light : roster.totalBytes < limits.maxRosterBytes) :
    overBytes limits roster = false :=
  decide_eq_false (not_le.mpr light)

theorem totalMembers_finishNames_le :
    (finishNames channel roster).totalMembers ≤ roster.totalMembers := by
  show total _ (mapEntries _ roster) ≤ _
  rw [total_mapEntries]
  refine total_mono fun key st _ => ?_
  have swapped : Edit {} False st st.swapNames := .swap
  split
  · exact Int.ofNat_le.mpr swapped.count_le
  · exact le_rfl

theorem pending_swapNames (st : ChannelState) : st.swapNames.pending = none := by
  cases burst : st.pending with
  | none => rw [st.swapNames_of_idle burst, burst]
  | some => rw [swapNames_of_burst burst]; rfl

theorem size_members_swapNames_lt {bound : Nat} (small : ∀ half, (st.half half).size < bound) :
    st.swapNames.members.size < bound := by
  cases burst : st.pending with
  | none =>
    rw [st.swapNames_of_idle burst]
    exact small .members
  | some pending =>
    have size := size_swapNames burst .members
    rw [if_pos rfl] at size
    exact size.trans_lt (small .pending)

theorem joinRoom_finishNames (exact_ : ExactBytes roster)
    (below : BelowCeilings limits isup roster line) (join : line.command = lit "JOIN")
    (tracked : roster.lookup (foldKey isup (line.param 0)) = some st) :
    JoinRoom limits (finishNames channel roster)
      (if foldKey isup (line.param 0) = channel then st.swapNames else st)
      (foldKey isup (senderOf line)) where
  light := overBytes_finishNames exact_ (overBytes_eq_false below.bytes)
  cap := by
    have small := below.channels _ st tracked
    split
    · exact size_members_swapNames_lt small
    · exact small .members
  members := totalMembers_finishNames_le.trans_lt below.members
  copy := by
    split
    · rw [pending_swapNames]
      exact nofun
    · intro _ missing
      exact (Int.add_le_add_right totalMembers_finishNames_le 1).trans_lt
        (below.copy join st tracked missing)

theorem joinRoom_created {name : Bytes} (bytes : roster.totalBytes < limits.maxRosterBytes)
    (members : roster.totalMembers < limits.maxRosterMembers)
    (cap : 0 < limits.maxChannelMembers) (fresh : roster.lookup (isup.fold name) = none) :
    JoinRoom limits (roster.insert (isup.fold name) { name }) { name } key where
  light := by
    refine overBytes_eq_false ?_
    show total _ _ < _
    rw [total_insert, weightAt, fresh]
    exact ((add_zero _).trans (sub_zero _)).trans_lt bytes
  cap := cap
  members := by
    show total _ _ < _
    rw [total_insert, weightAt, fresh]
    exact ((add_zero _).trans (sub_zero _)).trans_lt members
  copy := nofun

theorem finishNames_insert {other : Bytes} (different : other ≠ channel) :
    finishNames channel (roster.insert other st) =
      (finishNames channel roster).insert other st := by
  refine (mapEntries_insert _ roster other st).trans ?_
  rw [if_neg different]
  rfl

theorem lookup_finishNames (other : Bytes) :
    (finishNames channel roster).lookup other =
      (roster.lookup other).map fun st => if other = channel then st.swapNames else st :=
  lookup_mapEntries ..

theorem finishNames_memberJoin (exact_ : ExactBytes roster)
    (below : BelowCeilings limits isup roster line) (join : line.command = lit "JOIN")
    (tracked : roster.lookup channel = some inFlight) {ours : Bool} :
    finishNames channel (memberJoin limits isup roster line (senderOf line) ours) =
      memberJoin limits isup (finishNames channel roster) line (senderOf line) ours := by
  unfold memberJoin joinChannel
  rw [lookup_finishNames]
  have size : size (finishNames channel roster) = roster.size := size_modify ..
  cases found : roster.lookup (isup.fold (clampRoster (line.param 0))) with
  | some st =>
    have room : JoinRoom limits roster st (foldKey isup (senderOf line)) :=
      ⟨overBytes_eq_false below.bytes, below.channels _ st found .members, below.members,
        fun _ missing => below.copy join st found missing⟩
    have after : (finishNames channel roster).lookup (foldKey isup (line.param 0)) = _ :=
      (lookup_finishNames _).trans (congrArg (Option.map _) found)
    refine (congrArg (finishNames channel) (admitJoin_of_room found room)).trans (Eq.trans ?_
      (admitJoin_of_room after (joinRoom_finishNames exact_ below join found)).symm)
    refine finishNames_modify fun st found _ => ?_
    have precise := exact_ channel st found
    exact swapNames_done (done_joinBoth precise) (done_joinBoth precise.swapNames)
      fun _ _ => passes_insert
  | none =>
    have different : foldKey isup (line.param 0) ≠ channel := fun same => by
      rw [← same] at tracked
      cases found.symm.trans tracked
    have after : (finishNames channel roster).lookup
        (isup.fold (clampRoster (line.param 0))) = none :=
      (lookup_finishNames _).trans (congrArg (Option.map _) found)
    have cap : 0 < limits.maxChannelMembers :=
      (Nat.zero_le _).trans_lt (below.channels channel inFlight tracked .members)
    have bytes : (finishNames channel roster).totalBytes < limits.maxRosterBytes :=
      not_le.mp (of_decide_eq_false (overBytes_finishNames exact_ (overBytes_eq_false below.bytes)))
    have members : (finishNames channel roster).totalMembers < limits.maxRosterMembers :=
      totalMembers_finishNames_le.trans_lt below.members
    dsimp only [map_none]
    rw [size]
    by_cases closed : (!ours || decide (limits.maxRosterChannels ≤ roster.size)) = true
    · rw [if_pos closed, if_pos closed]
    · rw [if_neg closed, if_neg closed]
      refine (congrArg (finishNames channel) (admitJoin_of_room (lookup_insert roster)
        (joinRoom_created below.bytes below.members cap found))).trans (Eq.trans ?_
        (admitJoin_of_room (lookup_insert _) (joinRoom_created bytes members cap after)).symm)
      rw [← finishNames_insert different]
      exact finishNames_modify fun st _ same => absurd same.symm different

/-! ### Any live line -/

def liveEvents : List Bytes :=
  ["JOIN", "PART", "KICK", "QUIT", "MODE", "AWAY", "ACCOUNT", "CHGHOST", "354", "TOPIC",
    "NICK"].map lit

def NickFree (isup : ISupport) (roster : Roster) (channel : Bytes) (line : IrcMessage) : Prop :=
  line.command = lit "NICK" → foldKey isup (line.param 0) ≠ foldKey isup (senderOf line) →
    ∀ st half, roster.lookup channel = some st →
      (st.half half).lookup (foldKey isup (line.param 0)) = none

theorem finishNames_handle (ourNick : Bytes) (exact_ : ExactBytes roster)
    (event : line.command ∈ liveEvents) (below : BelowCeilings limits isup roster line)
    (tracked : roster.lookup channel = some inFlight) (free : NickFree isup roster channel line) :
    finishNames channel (roster.handle limits isup ourNick line) =
      (finishNames channel roster).handle limits isup ourNick line := by
  have light := overBytes_eq_false below.bytes
  have other {name : String} (absent : lit name ∉ liveEvents) : ¬line.command = lit name :=
    fun same => absent (same ▸ event)
  have branch {test : Prop} [Decidable test] {first second before after : Roster}
      (holds : test → finishNames channel first = before)
      (fails : ¬test → finishNames channel second = after) :
      finishNames channel (if test then first else second) = if test then before else after := by
    by_cases truth : test
    · rw [if_pos truth, if_pos truth, holds truth]
    · rw [if_neg truth, if_neg truth, fails truth]
  have left {Item : Type} (items : List Item) (place : Item → Bytes × Bytes × Bool) :
      finishNames channel (items.foldl (fun roster item =>
        memberLeft isup roster (place item).1 (place item).2.1 (place item).2.2) roster) =
      items.foldl (fun roster item =>
        memberLeft isup roster (place item).1 (place item).2.1 (place item).2.2)
        (finishNames channel roster) := by
    refine finishNames_foldl fun earlier item later _ => finishNames_memberLeft ?_ ..
    have moves : Moves limits isup False False roster (earlier.foldl (fun roster item =>
        memberLeft isup roster (place item).1 (place item).2.1 (place item).2.2) roster) :=
      Moves.ofFoldl earlier fun _ item _ _ => moves_memberLeft ..
    exact moves.exact exact_
  have update {nick : Bytes} {change : Member → Member} (merges : UpdateMerges change) :
      finishNames channel (updateEverywhere limits isup roster nick change) =
        updateEverywhere limits isup (finishNames channel roster) nick change :=
    finishNames_updateEverywhere exact_ light merges
  unfold Roster.handle
  refine branch (fun wrong => absurd wrong (other (by decide))) fun _ => ?_
  refine branch (fun wrong => absurd wrong (other (by decide))) fun _ => ?_
  refine branch (fun wrong => absurd wrong (other (by decide))) fun _ => ?_
  refine branch (fun wrong => absurd wrong (other (by decide))) fun _ => ?_
  refine branch (fun _ => finishNames_setTopic exact_ light) fun _ => ?_
  refine branch (fun join => finishNames_memberJoin exact_ below join tracked) fun _ => ?_
  refine branch (fun _ => left _ fun other => (other, _, _)) fun _ => ?_
  refine branch (fun _ => left (kicks line) fun kick =>
    (kick.1, kick.2, isUs isup ourNick kick.2)) fun _ => ?_
  refine branch (fun _ => finishNames_mapEntries fun st found =>
    swapNames_del (exact_ channel st found)) fun _ => ?_
  refine branch (fun nick => finishNames_rename exact_ light (free nick)) fun _ => ?_
  refine branch (fun _ => update merges_host) fun _ => ?_
  refine branch (fun _ => update merges_away) fun _ => ?_
  refine branch (fun _ => update merges_account) fun _ => ?_
  refine branch (fun _ => branch (fun _ => rfl) fun _ => update merges_whox) fun _ => ?_
  refine branch (fun mode => finishNames_foldl fun earlier change later split => ?_) fun _ => rfl
  have moves : Moves limits isup False False roster (earlier.foldl
      (applyStatusMode limits isup (foldKey isup (line.param 0))) roster) :=
    Moves.ofFoldl earlier fun _ change _ _ => moves_applyStatusMode _ _ change nofun
  exact finishNames_applyStatusMode (moves.exact exact_)
    (overBytes_eq_false (below.grants mode earlier change later split)) _ change

end Commutes

/-! ### Either side of the end -/

section Runs

variable {limits : Limits} {nick : Bytes} {connection : Connection} {line : IrcMessage}

theorem handle_namesEnd {ourNick : Bytes} {roster : Roster} (ends : line.command = lit "366") :
    roster.handle limits isup ourNick line = finishNames (foldKey isup (line.param 1)) roster := by
  unfold Roster.handle
  rw [if_neg (by rw [ends]; decide), if_pos ends]
  rfl

theorem processLine_of_command_ne (other : line.command ≠ lit "005") (connection : Connection) :
    connection.processLine limits false line = connection.onLiveLine limits line := by
  unfold Connection.processLine
  rw [ISupport.handle_of_command_ne other]
  rfl

theorem processLine_namesEnd {ending : IrcMessage} (ends : ending.command = lit "366")
    (connection : Connection) :
    connection.processLine limits false ending =
      some { connection with
        roster := finishNames (foldKey connection.isup (ending.param 1)) connection.roster } := by
  have unrelated : connection.renamedTo ending = none :=
    if_neg fun renamed => absurd (ends.symm.trans renamed.1) (by decide)
  rw [processLine_of_command_ne (by rw [ends]; decide), Connection.onLiveLine, unrelated]
  exact congrArg (fun roster => some { connection with roster }) (handle_namesEnd ends)

/-- While no ceiling is reached, a live line does the same immediately before the end of the NAMES
burst of a channel and immediately after it. -/
theorem names_burst_consistent (reached : Connection.Reachable limits nick connection)
    {line ending : IrcMessage} {st : ChannelState} (event : line.command ∈ liveEvents)
    (ends : ending.command = lit "366")
    (tracked : connection.roster.lookup (foldKey connection.isup (ending.param 1)) = some st)
    (below : BelowCeilings limits connection.isup connection.roster line)
    (free : NickFree connection.isup connection.roster
      (foldKey connection.isup (ending.param 1)) line) :
    ((connection.processLine limits false line).bind fun connection =>
        connection.processLine limits false ending) =
      (connection.processLine limits false ending).bind fun connection =>
        connection.processLine limits false line := by
  have other : line.command ≠ lit "005" := fun same => absurd (same ▸ event) (by decide)
  have commutes := finishNames_handle ((connection.renamedTo line).getD connection.nick)
    (exact_of_reachable reached) event below tracked free
  rw [processLine_namesEnd ends, bind_some, processLine_of_command_ne other,
    processLine_of_command_ne other]
  simp only [processLine_namesEnd ends]
  show Option.bind (if (connection.renamedTo line).any _ then none else some _) _ =
    if (connection.renamedTo line).any _ then none else some _
  split
  · rfl
  · rw [bind_some]
    exact congrArg (fun roster => some { connection with
      nick := (connection.renamedTo line).getD connection.nick, roster }) commutes

/-- Our own user and host become known again while a burst that did not carry them is in flight. -/
def hostChanges : IrcMessage := lineFrom me "CHGHOST" ["user", "cloak"]

def namesEnds : IrcMessage :=
  lineFrom { name := lit "server" } "366" ["me", "#go", "End of NAMES"]

theorem names_burst_consistent_hostChanges :
    ((namesInFlight {}).roster.lookup (lit "#go")).any (·.pending.isSome) = true ∧
      (((namesInFlight {}).processLine {} false hostChanges).bind fun connection =>
          connection.processLine {} false namesEnds) =
        ((namesInFlight {}).processLine {} false namesEnds).bind fun connection =>
          connection.processLine {} false hostChanges := by
  have small : (namesInFlight {}).roster.entries.all (fun entry =>
      (entry.2.half .members).size < 25000 && (entry.2.half .pending).size < 25000) = true := by
    decide +kernel
  have tracked : ((namesInFlight {}).roster.lookup (lit "#go")).isSome = true := by decide +kernel
  obtain ⟨st, found⟩ := isSome_iff_exists.mp tracked
  refine ⟨by decide +kernel, names_burst_consistent (run_afterLines _ _) (by decide) rfl found
    ⟨by decide +kernel, by decide +kernel, fun channel st found half => ?_, nofun, nofun⟩ nofun⟩
  have bounds := all_eq_true.mp small _ (mem_of_lookup found)
  rw [Bool.and_eq_true, decide_eq_true_eq, decide_eq_true_eq] at bounds
  cases half with
  | members => exact bounds.1
  | pending => exact bounds.2

end Runs

end Ircthing.Irc
