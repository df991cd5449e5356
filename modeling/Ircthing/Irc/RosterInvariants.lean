/-
This file proves what the moves of a line keep.
-/

import Ircthing.Irc.RosterMoves

namespace Ircthing.Irc

open Library Relation Option Dict ChannelState

/-! ### Invariants of the channels -/

section Channels

variable {limits : Limits} {isup : ISupport} {bounded lean : Prop} {line : IrcMessage}
  {member : Member} {other : Half}
variable {st next : ChannelState} {property : Bytes → ChannelState → Prop} {roster : Roster}
    {channel key : Bytes} {half : Half}

def Each (property : Bytes → ChannelState → Prop) (roster : Roster) : Prop :=
  ∀ key st, roster.lookup key = some st → property key st

theorem Edits.keep {motive : ChannelState → Prop}
    (edit : ∀ st next, Edit isup lean st next → motive st → motive next)
    (edits : Edits isup lean st next) (holds : motive st) : motive next := by
  induction edits with
  | refl => exact holds
  | tail _ last ih => exact edit _ _ last ih

theorem Each.mapEntries {rewrite : Bytes → ChannelState → ChannelState}
    (each : Each property roster)
    (kept : ∀ key st, roster.lookup key = some st → property key st →
      property key (rewrite key st)) :
    Each property (roster.mapEntries rewrite) := by
  intro key st found
  rw [lookup_mapEntries, map_eq_some_iff] at found
  obtain ⟨earlier, held, rfl⟩ := found
  exact kept key earlier held (each key earlier held)

theorem Each.modify {rewrite : ChannelState → ChannelState} (each : Each property roster)
    (kept : ∀ st, roster.lookup channel = some st → property channel st →
      property channel (rewrite st)) :
    Each property (roster.modify channel rewrite) := by
  refine each.mapEntries fun key st found holds => ?_
  split
  next same =>
    subst same
    exact kept st found holds
  · exact holds

theorem Each.erase (each : Each property roster) (channel : Bytes) :
    Each property (roster.erase channel) := by
  intro key st found
  rw [lookup_erase_eq] at found
  split at found
  · cases found
  · exact each key st found

theorem Each.insert (each : Each property roster) (holds : property channel st) :
    Each property (roster.insert channel st) := by
  intro key other found
  rw [lookup_insert_eq] at found
  split at found
  next same =>
    cases found
    exact same ▸ holds
  · exact each key other found

theorem Moves.each
    (edit : ∀ key st next, Edit isup lean st next → property key st → property key next)
    (fresh : ∀ name, property (isup.fold name) { name })
    (accept : ∀ key st half (member : Member), property key st →
      property key (st.put half (isup.fold member.nick) member)) {next : Roster}
    (moves : Moves limits isup bounded lean roster next) (each : Each property roster) :
    Each property next := by
  induction moves with
  | refl => exact each
  | tail _ last ih =>
    cases last with
    | edit _ edits =>
      exact ih.mapEntries fun key st found holds =>
        Edits.keep (edit key) (edits key st found) holds
    | leave channel => exact ih.erase channel
    | create name => exact ih.insert (fresh name)
    | accept half member =>
      exact ih.modify fun st _ holds => accept _ st half member holds

/-! ### The bytes of a channel -/

variable (st)

def ChannelState.Exact : Prop := st.bytes = st.countedBytes

theorem countedBytes_put (half : Half) (key : Bytes) (member : Member) :
    (st.put half key member).countedBytes = st.countedBytes + st.putDelta half key member := by
  have total := total_insert memberBytes (st.half half) key member
  unfold countedBytes putDelta
  rw [half_put, half_put, topic_put]
  cases half with
  | members | pending =>
    rw [if_pos rfl, if_neg (by decide), total]
    omega

theorem countedBytes_del (half : Half) (key : Bytes) :
    (st.del half key).countedBytes = st.countedBytes - (st.half half).weightAt memberBytes key := by
  have total := total_erase memberBytes (st.half half) key
  unfold countedBytes
  rw [half_del, half_del, topic_del]
  cases half with
  | members | pending =>
    rw [if_pos rfl, if_neg (by decide), total]
    omega

variable {st}

section

variable (exact_ : st.Exact)
include exact_

theorem ChannelState.Exact.put (half : Half) (key : Bytes) (member : Member) :
    (st.put half key member).Exact :=
  (congrArg (· + st.putDelta half key member) exact_).trans (countedBytes_put ..).symm

theorem ChannelState.Exact.del (half : Half) (key : Bytes) :
    (st.del half key).Exact := by
  unfold ChannelState.Exact at exact_ ⊢
  rw [bytes_del, countedBytes_del, exact_]

theorem ChannelState.Exact.retopic (topic : Bytes) :
    (st.retopic topic).Exact := by
  unfold ChannelState.Exact countedBytes at exact_ ⊢
  rw [st.half_retopic, st.half_retopic]
  show st.bytes + (topic.length - st.topic.length) = topic.length + _ + _
  omega

theorem ChannelState.Exact.swapNames : st.swapNames.Exact := by
  cases burst : st.pending with
  | none => exact (st.swapNames_of_idle burst).symm ▸ exact_
  | some =>
    unfold ChannelState.swapNames
    rw [burst]
    rfl

end

theorem Edit.exact (edit : Edit isup lean st next) (exact_ : st.Exact) : next.Exact := by
  cases edit with
  | drop half key => exact exact_.del half key
  | rewrite => exact exact_.put ..
  | rekey => exact (exact_.del ..).put ..
  | retopic topic => exact exact_.retopic topic
  | collect => exact exact_
  | swap => exact exact_.swapNames

theorem Moves.exact {next : Roster} (moves : Moves limits isup bounded lean roster next)
    (exact_ : Each (fun _ st => st.Exact) roster) : Each (fun _ st => st.Exact) next :=
  moves.each (fun _ _ _ edit => edit.exact) (fun _ => rfl)
    (fun _ _ half _ holds => holds.put half ..) exact_

/-! ### The keys of a channel -/

def ChannelState.Keyed (isup : ISupport) (st : ChannelState) : Prop :=
  ∀ half key member, (st.half half).lookup key = some member → key = isup.fold member.nick

theorem ChannelState.Keyed.put (keyed : st.Keyed isup) (half : Half)
    (folded : key = isup.fold member.nick) : (st.put half key member).Keyed isup := by
  intro other place held found
  rw [half_put] at found
  split at found
  · rw [lookup_insert_eq] at found
    split at found
    next same =>
      cases found
      exact same.trans folded
    · exact keyed half place held found
  · exact keyed other place held found

theorem ChannelState.Keyed.del (keyed : st.Keyed isup) (half : Half) (key : Bytes) :
    (st.del half key).Keyed isup := by
  intro other place held found
  rw [half_del] at found
  split at found
  · rw [lookup_erase_eq] at found
    split at found
    · cases found
    · exact keyed half place held found
  · exact keyed other place held found

@[simp] theorem nick_mergeKnown (known : Option Member) (member : Member) :
    (mergeKnown known member).nick = member.nick := by
  unfold mergeKnown
  cases known with
  | none => rfl
  | some =>
    dsimp only
    split <;> rfl

theorem ChannelState.Keyed.swapNames (keyed : st.Keyed isup) : st.swapNames.Keyed isup := by
  cases burst : st.pending with
  | none => exact (st.swapNames_of_idle burst).symm ▸ keyed
  | some pending =>
    intro half key member found
    rw [st.half_swapNames burst] at found
    split at found
    · rw [lookup_mapEntries, map_eq_some_iff] at found
      obtain ⟨collected, held, rfl⟩ := found
      rw [nick_mergeKnown]
      refine keyed .pending key collected ?_
      show (st.pending.getD ∅).lookup key = _
      rw [burst]
      exact held
    · cases found

theorem Edit.keyed (edit : Edit isup lean st next) (keyed : st.Keyed isup) : next.Keyed isup := by
  cases edit with
  | drop half key => exact keyed.del half key
  | rewrite found kept => exact keyed.put _ (kept ▸ keyed _ _ _ found)
  | rekey => exact ChannelState.Keyed.put (keyed.del _ _) _ rfl
  | retopic topic => exact fun half => (st.half_retopic topic half).symm ▸ keyed half
  | collect => exact fun half => (st.half_collectNames half).symm ▸ keyed half
  | swap => exact keyed.swapNames

theorem Edit.name (edit : Edit isup lean st next) : next.name = st.name := by
  cases edit with
  | drop => exact name_del ..
  | rewrite => exact name_put ..
  | rekey => exact (name_put ..).trans (name_del ..)
  | retopic => rfl
  | collect => rfl
  | swap => exact name_swapNames st

def Folded (isup : ISupport) (key : Bytes) (st : ChannelState) : Prop :=
  key = isup.fold st.name ∧ st.Keyed isup

theorem Moves.folded {next : Roster} (moves : Moves limits isup bounded lean roster next)
    (folded : Each (Folded isup) roster) : Each (Folded isup) next := by
  refine moves.each (fun key st next edit holds => ?_) (fun name => ?_)
    (fun key st half member holds => ?_) folded
  · exact ⟨edit.name.symm ▸ holds.1, edit.keyed holds.2⟩
  · refine ⟨rfl, fun half key member found => ?_⟩
    cases half <;> cases found
  · exact ⟨(st.name_put half _ member).symm ▸ holds.1, holds.2.put half rfl⟩

/-! ### The entries of a channel -/

def Capped (limits : Limits) (st : ChannelState) : Prop :=
  ∀ half, (st.half half).size ≤ limits.maxChannelMembers

theorem size_put_of_found {old : Member} (found : (st.half half).lookup key = some old) :
    ((st.put half key member).half other).size = (st.half other).size := by
  rw [half_put]
  split
  next same =>
    have size := size_insert (st.half half) key member
    rw [found] at size
    rw [same]
    exact Int.ofNat_inj.mp size
  · rfl

theorem size_del_le {st : ChannelState} {half : Half} {key : Bytes} :
    ((st.del half key).half other).size ≤ (st.half other).size := by
  rw [half_del]
  split
  next same =>
    have size := size_erase (st.half half) key
    rw [same]
    split at size <;> omega
  · exact le_rfl

theorem size_rekey_le {old : Member} (found : (st.half half).lookup key = some old)
    {place : Bytes} :
    (((st.del half key).put half place member).half other).size ≤ (st.half other).size := by
  rw [half_put, half_del, half_del, if_pos rfl]
  split
  next same =>
    have erased := size_erase (st.half half) key
    have inserted := size_insert ((st.half half).erase key) place member
    rw [found, isSome_some, if_pos rfl] at erased
    rw [same]
    split at inserted <;> omega
  · exact le_rfl

theorem Edit.size_le_or_swap (edit : Edit isup lean st next) :
    (∀ half, (next.half half).size ≤ (st.half half).size) ∨ next = st.swapNames := by
  cases edit with
  | drop => exact .inl fun other => size_del_le
  | rewrite found => exact .inl fun other => (size_put_of_found found).le
  | rekey _ found => exact .inl fun other => size_rekey_le found
  | retopic topic => exact .inl fun other => (st.half_retopic topic other).symm ▸ le_rfl
  | collect => exact .inl fun other => (st.half_collectNames other).symm ▸ le_rfl
  | swap => exact .inr rfl

theorem size_swapNames {pending : Dict Bytes Member} (burst : st.pending = some pending)
    (half : Half) :
    (st.swapNames.half half).size = if half = .members then (st.half .pending).size else 0 := by
  have held : st.half .pending = pending := congrArg (·.getD ∅) burst
  rw [st.half_swapNames burst, held]
  split
  · exact size_mapEntries ..
  · rfl

theorem Edit.capped (edit : Edit isup lean st next) (capped : Capped limits st) :
    Capped limits next := by
  intro half
  rcases edit.size_le_or_swap with smaller | rfl
  · exact (smaller half).trans (capped half)
  · cases burst : st.pending with
    | none => exact (st.swapNames_of_idle burst).symm ▸ capped half
    | some pending =>
      rw [size_swapNames burst]
      split
      · exact capped .pending
      · exact Nat.zero_le _

theorem Edit.count_le (edit : Edit isup lean st next) : next.count ≤ st.count := by
  rcases edit.size_le_or_swap with smaller | rfl
  · exact Nat.add_le_add (smaller .members) (smaller .pending)
  · cases burst : st.pending with
    | none => exact (st.swapNames_of_idle burst).symm ▸ le_rfl
    | some =>
      unfold ChannelState.count
      rw [size_swapNames burst, size_swapNames burst, if_pos rfl, if_neg (by decide)]
      omega

structure Within (limits : Limits) (roster : Roster) : Prop where
  channels : roster.size ≤ limits.maxRosterChannels
  capped : Each (fun _ => Capped limits) roster
  members : roster.totalMembers ≤ limits.maxRosterMembers

theorem capped_put (capped : Capped limits st)
    (room : ((st.half half).lookup key).isSome ∨ (st.half half).size < limits.maxChannelMembers) :
    Capped limits (st.put half key member) := by
  intro other
  have before := capped other
  rw [half_put]
  split
  next same =>
    have size := size_insert (st.half half) key member
    rw [same] at before
    split at size
    · omega
    next missing =>
      have below := room.resolve_left missing
      omega
  · exact before

theorem Move.within {next : Roster} (move : Move limits isup True lean roster next)
    (within : Within limits roster) : Within limits next := by
  obtain ⟨channels, capped, members⟩ := within
  cases move with
  | edit rewrite edits =>
    refine ⟨(size_mapEntries rewrite roster).trans_le channels, ?_, ?_⟩
    · exact capped.mapEntries fun key st found holds =>
        Edits.keep (fun _ _ edit => edit.capped) (edits key st found) holds
    · refine le_trans ?_ members
      show total _ (roster.mapEntries rewrite) ≤ _
      rw [total_mapEntries]
      refine total_mono fun key st found => Int.ofNat_le.mpr ?_
      exact Edits.keep (motive := fun next => next.count ≤ st.count)
        (fun _ _ edit bounded => edit.count_le.trans bounded) (edits key st found) le_rfl
  | leave channel =>
    have size := size_erase roster channel
    refine ⟨by split at size <;> omega, capped.erase channel, ?_⟩
    show total _ (roster.erase channel) ≤ _
    rw [total_erase]
    have nonneg : 0 ≤ weightAt (fun _ st => (st.count : Int)) roster channel := by
      unfold weightAt
      cases roster.lookup channel with
      | none => exact le_rfl
      | some => exact Int.natCast_nonneg _
    exact (Int.sub_le_self _ nonneg).trans members
  | create name fresh =>
    have size := size_insert roster (isup.fold name) { name }
    refine ⟨by split at size <;> omega, capped.insert fun half => ?_, ?_⟩
    · cases half <;> exact Nat.zero_le _
    · show total _ (roster.insert (isup.fold name) { name }) ≤ _
      rw [total_insert, weightAt, fresh]
      exact (add_zero _).trans (sub_zero _) |>.trans_le members
  | accept _ _ tracked room cap =>
    refine ⟨(size_modify _ _ roster).trans_le channels, ?_, ?_⟩
    · refine capped.modify fun st found holds => ?_
      cases found.symm.trans tracked
      exact capped_put holds (cap trivial)
    · rw [totalMembers_put tracked]
      split
      · omega
      next missing =>
        have below := room.resolve_left missing
        omega

theorem Moves.within {next : Roster} (moves : Moves limits isup True lean roster next)
    (within : Within limits roster) : Within limits next := by
  induction moves with
  | refl => exact within
  | tail _ last ih => exact last.within ih

/-! ### The bytes of the roster -/

theorem memberBytes_nonneg (key : Bytes) (member : Member) : 0 ≤ memberBytes key member :=
  Int.natCast_nonneg _

variable (map : Dict Bytes Member)

theorem total_memberBytes_nonneg : 0 ≤ map.total memberBytes :=
  total_nonneg fun key member _ => memberBytes_nonneg key member

theorem weightAt_nonneg (key : Bytes) : 0 ≤ map.weightAt memberBytes key := by
  unfold weightAt
  cases map.lookup key with
  | none => exact le_rfl
  | some member => exact memberBytes_nonneg key member

theorem ChannelState.Exact.bytes_nonneg (exact_ : st.Exact) : 0 ≤ st.bytes := by
  have members := total_memberBytes_nonneg (st.half .members)
  have pending := total_memberBytes_nonneg (st.half .pending)
  unfold ChannelState.Exact countedBytes at exact_
  omega

theorem memberBytes_mergeKnown_le {key : Bytes} {known : Option Member} :
    memberBytes key (mergeKnown known member) ≤
      memberBytes key member + known.elim 0 (memberBytes key) := by
  cases known with
  | none => exact (add_zero _).ge
  | some old =>
    unfold mergeKnown
    dsimp only
    split
    · show memberBytes key _ ≤ memberBytes key member + memberBytes key old
      unfold memberBytes
      dsimp only
      omega
    · show memberBytes key _ ≤ memberBytes key member + memberBytes key old
      unfold memberBytes
      dsimp only
      omega

theorem bytes_swapNames_le (exact_ : st.Exact) : st.swapNames.bytes ≤ st.bytes := by
  cases burst : st.pending with
  | none => exact (congrArg bytes (st.swapNames_of_idle burst)).le
  | some pending =>
    have after : st.swapNames.bytes = st.swapNames.countedBytes := exact_.swapNames
    have held : st.half .pending = pending := congrArg (·.getD ∅) burst
    have topic : st.swapNames.topic = st.topic := by
      unfold ChannelState.swapNames
      rw [burst]
      rfl
    have merged : total memberBytes (pending.mapEntries fun key member =>
          mergeKnown (st.members.lookup key) member) ≤
        pending.total memberBytes + st.members.total memberBytes := by
      rw [total_mapEntries]
      refine le_trans (total_mono fun key member _ =>
        memberBytes_mergeKnown_le) ?_
      rw [total_add]
      exact Int.add_le_add_left (total_weightAt_le pending st.members memberBytes_nonneg) _
    have before : st.bytes = st.countedBytes := exact_
    rw [after, before]
    unfold countedBytes
    rw [st.half_swapNames burst, st.half_swapNames burst, if_pos rfl, if_neg (by decide), held,
      topic, total_empty]
    show _ ≤ _ + st.members.total memberBytes + _
    omega

theorem Edit.bytes_le (edit : Edit isup True st next) (exact_ : st.Exact) :
    next.bytes ≤ st.bytes := by
  cases edit with
  | drop =>
    rw [bytes_del]
    exact Int.sub_le_self _ (weightAt_nonneg _ _)
  | @rewrite half key old new found kept shrinks =>
    have smaller := shrinks trivial
    rw [bytes_put, putDelta, weightAt, found, elim_some]
    omega
  | @rekey half key old nick found shrinks =>
    have smaller := shrinks trivial
    have replaced := weightAt_nonneg ((st.del half key).half half) (isup.fold nick)
    rw [bytes_put, putDelta, bytes_del, weightAt, found, elim_some]
    omega
  | retopic topic shrinks =>
    have shorter := shrinks trivial
    show st.bytes + (topic.length - st.topic.length) ≤ st.bytes
    omega
  | collect => exact le_rfl
  | swap => exact bytes_swapNames_le exact_

theorem Edits.bytes_le (edits : Edits isup True st next) (exact_ : st.Exact) :
    next.bytes ≤ st.bytes :=
  (Edits.keep (motive := fun later => later.Exact ∧ later.bytes ≤ st.bytes)
    (fun _ _ edit holds => ⟨edit.exact holds.1, (edit.bytes_le holds.1).trans holds.2⟩)
    edits ⟨exact_, le_rfl⟩).2

theorem Move.totalBytes_le {next : Roster} (move : Move limits isup bounded True roster next)
    (exact_ : Each (fun _ st => st.Exact) roster) : next.totalBytes ≤ roster.totalBytes := by
  cases move with
  | edit rewrite edits =>
    show total _ (roster.mapEntries rewrite) ≤ _
    rw [total_mapEntries]
    exact total_mono fun key st found => (edits key st found).bytes_le (exact_ key st found)
  | leave channel =>
    show total _ (roster.erase channel) ≤ _
    rw [total_erase, weightAt]
    refine Int.sub_le_self _ ?_
    cases found : roster.lookup channel with
    | none => exact le_rfl
    | some st => exact (exact_ channel st found).bytes_nonneg
  | create name fresh =>
    show total _ (roster.insert (isup.fold name) { name }) ≤ _
    rw [total_insert, weightAt, fresh]
    exact ((add_zero _).trans (sub_zero _)).le
  | accept _ _ _ _ _ grows => exact absurd trivial grows

theorem Moves.totalBytes_le {next : Roster} (moves : Moves limits isup bounded True roster next)
    (exact_ : Each (fun _ st => st.Exact) roster) : next.totalBytes ≤ roster.totalBytes := by
  induction moves with
  | refl => exact le_rfl
  | tail earlier last ih =>
    exact (last.totalBytes_le (Moves.exact earlier exact_)).trans ih

/-! ### The bytes of a JOIN -/

theorem totalBytes_modify (tracked : roster.lookup channel = some st)
    (rewrite : ChannelState → ChannelState) :
    Roster.totalBytes (roster.modify channel rewrite) =
      roster.totalBytes - st.bytes + (rewrite st).bytes :=
  total_modify _ tracked rewrite

theorem totalBytes_put (tracked : roster.lookup channel = some st) (half : Half) (key : Bytes)
    (member : Member) :
    Roster.totalBytes (roster.modify channel (·.put half key member)) =
      roster.totalBytes + st.putDelta half key member := by
  rw [totalBytes_modify tracked, bytes_put]
  omega

def EntryCovered (st : ChannelState) (key : Bytes) (member : Member) : Prop :=
  ∀ pending old held, st.pending = some pending → st.members.lookup key = some old →
    pending.lookup key = some held → memberBytes key member ≤ memberBytes key old →
    2 * memberBytes key member ≤ memberBytes key old + memberBytes key held

def JoinCovered (isup : ISupport) (roster : Roster) (line : IrcMessage) : Prop :=
  ∀ st, roster.lookup (foldKey isup (line.param 0)) = some st →
    EntryCovered st (foldKey isup (senderOf line)) (joinMember line (clampRoster (senderOf line)))

theorem joinRefused_iff_of_over (full : overBytes limits roster = true) :
    joinRefused limits roster st key member = true ↔
      ∀ old, st.members.lookup key = some old → memberBytes key old < memberBytes key member := by
  unfold joinRefused
  rw [full]
  cases st.members.lookup key with
  | none => exact iff_of_true (Bool.or_true _) nofun
  | some old =>
    show (true && decide _) = true ↔ _
    rw [Bool.true_and, decide_eq_true_eq]
    exact ⟨fun grows _ same => some.inj same ▸ grows, fun grows => grows old rfl⟩

theorem totalBytes_admitJoin_le_iff (sender : Bytes)
    (tracked : roster.lookup (foldKey isup (line.param 0)) = some st)
    (full : overBytes limits roster = true) :
    (admitJoin limits isup roster st line sender).totalBytes ≤ roster.totalBytes ↔
      EntryCovered st (foldKey isup sender) (joinMember line (clampRoster sender)) := by
  unfold admitJoin
  generalize foldKey isup sender = key
  generalize joinMember line (clampRoster sender) = member
  have refused_iff : joinRefused limits roster st key member = true ↔ _ :=
    joinRefused_iff_of_over full
  by_cases refused : joinRefused limits roster st key member = true
  · rw [if_pos refused]
    refine iff_of_true le_rfl fun _ old _ _ known _ shrinks => ?_
    exact absurd shrinks (not_le.mpr (refused_iff.mp refused old known))
  · obtain ⟨old, accepted⟩ := not_forall.mp (mt refused_iff.mpr refused)
    obtain ⟨known, shrinks⟩ := Classical.not_imp.mp accepted
    have first := totalBytes_put tracked .members key member
    have freed : st.putDelta .members key member =
        memberBytes key member - memberBytes key old := by
      unfold putDelta weightAt
      rw [show (st.half .members).lookup key = some old from known, elim_some]
    rw [if_neg refused, full]
    by_cases collected : ∃ pending held, st.pending = some pending ∧ pending.lookup key = some held
    · obtain ⟨pending, held, burst, found⟩ := collected
      have half_eq : st.half .pending = pending := congrArg (·.getD ∅) burst
      have second := totalBytes_put
        (lookup_modify_self tracked (·.put .members key member)) .pending key member
      have grown : (st.put .members key member).putDelta .pending key member =
          memberBytes key member - memberBytes key held := by
        unfold putDelta weightAt
        rw [half_put, if_neg (by decide), half_eq, found, elim_some]
      rw [if_pos (by rw [half_eq, burst, found]; rfl), second, first, freed, grown]
      constructor
      · rintro bounded _ _ _ sameBurst sameOld sameHeld -
        cases sameBurst.symm.trans burst
        cases sameOld.symm.trans known
        cases sameHeld.symm.trans found
        omega
      · intro covered
        have paid := covered pending old held burst known found (not_lt.mp shrinks)
        omega
    · have alone : ¬(st.pending.isSome && (((st.half .pending).lookup key).isSome ||
          (decide (Roster.totalMembers (roster.modify (foldKey isup (line.param 0))
            (·.put .members key member)) < limits.maxRosterMembers) && !true))) = true := by
        rw [Bool.not_true, Bool.and_false, Bool.or_false, Bool.and_eq_true]
        rintro ⟨burst, found⟩
        obtain ⟨pending, burst⟩ := isSome_iff_exists.mp burst
        obtain ⟨held, found⟩ := isSome_iff_exists.mp found
        rw [show st.half .pending = pending from congrArg (·.getD ∅) burst] at found
        exact collected ⟨pending, held, burst, found⟩
      rw [if_neg alone, first, freed]
      refine iff_of_true (by omega) fun pending _ held burst _ found => ?_
      exact absurd ⟨pending, held, burst, found⟩ collected

theorem totalBytes_memberJoin_le_iff (ours : Bool) (full : overBytes limits roster = true) :
    (memberJoin limits isup roster line (senderOf line) ours).totalBytes ≤ roster.totalBytes ↔
      JoinCovered isup roster line := by
  unfold memberJoin
  cases resolved : joinChannel limits isup roster (clampRoster (line.param 0)) ours with
  | none =>
    refine iff_of_true le_rfl fun st tracked => ?_
    unfold joinChannel at resolved
    rw [show roster.lookup (isup.fold (clampRoster (line.param 0))) = some st from tracked]
      at resolved
    cases resolved
  | some found =>
    obtain ⟨_, st⟩ := found
    rcases joinChannel_eq_some resolved with ⟨rfl, tracked⟩ | ⟨fresh, _, rfl, rfl⟩
    · rw [totalBytes_admitJoin_le_iff _ tracked full]
      refine ⟨fun covered other same => ?_, fun covered => covered st tracked⟩
      cases same.symm.trans tracked
      exact covered
    · -- the new channel takes no bytes yet, and its first member is refused
      have created : Roster.totalBytes (roster.insert (foldKey isup (line.param 0))
          { name := clampRoster (line.param 0) }) = roster.totalBytes := by
        show total _ _ = _
        rw [total_insert, weightAt,
          show roster.lookup (foldKey isup (line.param 0)) = none from fresh]
        exact (add_zero _).trans (sub_zero _)
      have full' : overBytes limits (roster.insert (foldKey isup (line.param 0))
          { name := clampRoster (line.param 0) }) = true := by
        unfold overBytes
        rw [created]
        exact full
      have bounded := totalBytes_admitJoin_le_iff (senderOf line) (AList.lookup_insert roster) full'
      rw [created] at bounded
      refine iff_of_true (bounded.mpr fun _ _ _ impossible => ?_) fun st found => ?_
      · cases impossible
      · cases found.symm.trans fresh

end Channels

end Ircthing.Irc
