/-
This file proves when the walk of a client over the members of a channel is complete.
-/

import Ircthing.Hub.MemberList
import Ircthing.Library.Paging

namespace Ircthing.Hub

open Library Irc List Json

/-! ### The order of keys -/

theorem rank_injective : Function.Injective rank :=
  map_injective_iff.mpr fun _ _ same => UInt8.toNat_inj.mp same

abbrev Entry := Bytes × Member

def Entry.rank (entry : Entry) : List Nat := Hub.rank entry.1

def sortedEntries (st : ChannelState) : List Entry :=
  ordered Entry.rank (st.members.entries.map fun entry => (entry.1, entry.2))

theorem entries_distinct {st : ChannelState} :
    ((st.members.entries.map fun entry => ((entry.1, entry.2) : Entry)).map (·.1)).Nodup := by
  rw [map_map]
  exact st.members.nodupKeys

theorem entries_keyed {st : ChannelState} :
    Keyed Entry.rank (st.members.entries.map fun entry => ((entry.1, entry.2) : Entry)) := by
  intro first firstMember second secondMember same
  exact inj_on_of_nodup_map entries_distinct firstMember secondMember (rank_injective same)

theorem sortedEntries_strict {st : ChannelState} :
    StrictlyAscending Entry.rank (sortedEntries st) :=
  ordered_ascending (Nodup.of_map _ entries_distinct) entries_keyed

variable {st : ChannelState} {after : Bytes}

/-! ### A page of the roster -/

def entriesPast (st : ChannelState) (after : Bytes) : List Entry :=
  (sortedEntries st).filter fun entry => eligible after entry.1

theorem entriesPast_strict {st : ChannelState} :
    StrictlyAscending Entry.rank (entriesPast st after) :=
  sortedEntries_strict.filter _

def keysPast (st : ChannelState) (after : Bytes) : List Bytes :=
  (st.members.entries.map (·.1)).filter (eligible after)

theorem ordered_keysPast {st : ChannelState} :
    (keysPast st after).Nodup ∧
      ordered rank (keysPast st after) = (entriesPast st after).map (·.1) := by
  have distinct : (keysPast st after).Nodup := Nodup.filter _ st.members.nodupKeys
  refine ⟨distinct, (ordered_ascending distinct fun _ _ _ _ same => rank_injective same).ext
    (pairwise_map.mpr entriesPast_strict) fun key => ?_⟩
  rw [mem_ordered, keysPast, entriesPast, sortedEntries]
  constructor
  · intro member
    obtain ⟨held, past⟩ := mem_filter.mp member
    obtain ⟨entry, inside, rfl⟩ := mem_map.mp held
    refine mem_map.mpr ⟨(entry.1, entry.2), mem_filter.mpr ⟨?_, past⟩, rfl⟩
    exact mem_ordered.mpr (mem_map_of_mem inside)
  · intro member
    obtain ⟨entry, held, rfl⟩ := mem_map.mp member
    obtain ⟨inside, past⟩ := mem_filter.mp held
    obtain ⟨_, kept, rfl⟩ := mem_map.mp (mem_ordered.mp inside)
    exact mem_filter.mpr ⟨mem_map_of_mem kept, past⟩

theorem channelPage_eq {name : Bytes}
    (found : roster.lookup (foldKey isup name) = some st) (limit : Nat) (after : Bytes) :
    channelPage isup roster name limit after =
      some (st.topic, ((entriesPast st after).take limit).map (·.2),
        decide (limit < (entriesPast st after).length)) := by
  obtain ⟨distinct, keys⟩ := ordered_keysPast
  have kept : (keysPast st after).foldl (retain limit) [] =
      ((entriesPast st after).take limit).map (·.1) := by
    rw [map_take, ← keys]
    exact foldl_keepLeast distinct (fun _ _ _ _ same => rank_injective same)
  have members : (((entriesPast st after).take limit).map (·.1)).filterMap st.members.lookup =
      ((entriesPast st after).take limit).map (·.2) := by
    rw [filterMap_map, ← filterMap_eq_map]
    refine filterMap_congr fun entry member => ?_
    obtain ⟨_, inside, rfl⟩ :=
      mem_map.mp (mem_ordered.mp (mem_of_mem_filter (mem_of_mem_take member)))
    exact Dict.lookup_of_mem inside
  have count : (keysPast st after).length = (entriesPast st after).length := by
    have lengths := congrArg length keys
    rwa [ordered, length_insertionSort, length_map] at lengths
  unfold channelPage
  rw [found, Option.map_some]
  refine congrArg some ?_
  show (st.topic, ((keysPast st after).foldl (retain limit) []).filterMap st.members.lookup,
    decide ((((keysPast st after).foldl (retain limit) []).filterMap st.members.lookup).length <
      (keysPast st after).length)) = _
  rw [kept, members, count, length_map, length_take]
  congr 2
  exact decide_eq_decide.mpr (by omega)

/-! ### The response -/

theorem admitMembers_eq (used : Nat) (first : Bool) (members : List MemberData) :
    ∃ count ≤ members.length, admitMembers used first members = members.take count := by
  induction members generalizing used first with
  | nil => exact ⟨0, le_rfl, rfl⟩
  | cons member _ ih =>
    rw [admitMembers]
    by_cases full : used + (member.json.length + if first then 0 else 1) > maxHistoryPayloadBytes
    · exact ⟨0, Nat.zero_le _, if_pos full⟩
    · obtain ⟨count, bound, taken⟩ := ih
        (used + (member.json.length + if first then 0 else 1)) false
      exact ⟨count + 1, Nat.succ_le_succ bound, (if_neg full).trans (by rw [taken, take_succ_cons])⟩

def blankResponse (network buffer topic : Bytes) (truncated : Bool) : ChannelData :=
  { network, buffer, joined := true, topic, truncated }

def pageSize (network buffer topic : Bytes) (past : List Entry) : Nat :=
  (admitMembers
    ((blankResponse network buffer topic
      (decide (maxChannelResponseMembers < past.length))).json.length + cursorReserve) true
    ((past.take maxChannelResponseMembers).map fun entry => memberData entry.2)).length

theorem pageSize_le (network buffer topic : Bytes) (past : List Entry) :
    pageSize network buffer topic past ≤ min maxChannelResponseMembers past.length := by
  unfold pageSize
  obtain ⟨_, bound, taken⟩ := admitMembers_eq
    ((blankResponse network buffer topic
      (decide (maxChannelResponseMembers < past.length))).json.length + cursorReserve) true
    ((past.take maxChannelResponseMembers).map fun entry => memberData entry.2)
  rw [taken]
  simp only [length_take, length_map] at bound ⊢
  omega

def pageOf (network buffer topic : Bytes) (past : List Entry) : List Entry :=
  past.take (pageSize network buffer topic past)

theorem admitMembers_past (network buffer topic : Bytes) (past : List Entry) :
    admitMembers
      ((blankResponse network buffer topic
        (decide (maxChannelResponseMembers < past.length))).json.length + cursorReserve) true
      ((past.take maxChannelResponseMembers).map fun entry => memberData entry.2) =
      (pageOf network buffer topic past).map fun entry => memberData entry.2 := by
  obtain ⟨count, bound, taken⟩ := admitMembers_eq
    ((blankResponse network buffer topic
      (decide (maxChannelResponseMembers < past.length))).json.length + cursorReserve) true
    ((past.take maxChannelResponseMembers).map fun entry => memberData entry.2)
  have size : pageSize network buffer topic past = count := by
    unfold pageSize
    rw [taken]
    exact length_take_of_le bound
  rw [length_map, length_take] at bound
  rw [taken, pageOf, size, ← map_take, take_take, Nat.min_eq_left (by omega)]

theorem buildChannelData_eq
    (found : roster.lookup (foldKey isup buffer) = some st) (after : Bytes) :
    buildChannelData (some (isup, roster)) { network, buffer, after } =
      { network, buffer, joined := true, topic := st.topic
        members := (pageOf network buffer st.topic (entriesPast st after)).map
          fun entry => memberData entry.2
        truncated := decide (pageSize network buffer st.topic (entriesPast st after) <
          (entriesPast st after).length)
        membersAfter :=
          if pageSize network buffer st.topic (entriesPast st after) <
              (entriesPast st after).length then
            ((pageOf network buffer st.topic (entriesPast st after)).getLast?.map
              fun entry => isup.fold entry.2.nick).getD []
          else [] } := by
  have size := pageSize_le network buffer st.topic (entriesPast st after)
  have filled : fillChannelMembers
      (blankResponse network buffer st.topic
        (decide (maxChannelResponseMembers < (entriesPast st after).length)))
      ((((entriesPast st after).take maxChannelResponseMembers).map (·.2)).map memberData) =
      { network, buffer, joined := true, topic := st.topic
        members := (pageOf network buffer st.topic (entriesPast st after)).map
          fun entry => memberData entry.2
        truncated := decide (pageSize network buffer st.topic (entriesPast st after) <
          (entriesPast st after).length) } := by
    unfold fillChannelMembers
    rw [map_map]
    have sent := admitMembers_past network buffer st.topic (entriesPast st after)
    have number := congrArg length sent
    rw [length_map, pageOf, length_take] at number
    have flag : (decide (maxChannelResponseMembers < (entriesPast st after).length) ||
        decide ((admitMembers
          ((blankResponse network buffer st.topic
            (decide (maxChannelResponseMembers < (entriesPast st after).length))).json.length +
              cursorReserve) true
          (((entriesPast st after).take maxChannelResponseMembers).map
            fun entry => memberData entry.2)).length <
          (((entriesPast st after).take maxChannelResponseMembers).map
            fun entry => memberData entry.2).length)) =
        decide (pageSize network buffer st.topic (entriesPast st after) <
          (entriesPast st after).length) := by
      rw [number, length_map, length_take, Bool.eq_iff_iff, Bool.or_eq_true,
        decide_eq_true_eq, decide_eq_true_eq, decide_eq_true_eq]
      omega
    exact (ChannelData.mk.injEq ..).mpr ⟨rfl, rfl, rfl, rfl, sent, flag, rfl⟩
  have built : buildChannelData (some (isup, roster)) { network, buffer, after } =
      setCursor isup (fillChannelMembers
        (blankResponse network buffer st.topic
          (decide (maxChannelResponseMembers < (entriesPast st after).length)))
        ((((entriesPast st after).take maxChannelResponseMembers).map (·.2)).map memberData)) := by
    unfold buildChannelData
    dsimp only
    rw [channelPage_eq found]
    rfl
  rw [built, filled]
  unfold setCursor
  by_cases more : pageSize network buffer st.topic (entriesPast st after) <
      (entriesPast st after).length
  · rw [decide_eq_true more, if_pos more, getLast?_map]
    cases (pageOf network buffer st.topic (entriesPast st after)).getLast? with
    | none => rfl
    | some => rfl
  · rw [decide_eq_false more, if_neg more]

/-! ### The walk of the client -/

def memberPager (isup : ISupport) (network buffer topic : Bytes) : Pager Entry Bytes where
  past after entry := eligible (delivered after) entry.1
  size := pageSize network buffer topic
  cursor entry := delivered (isup.fold entry.2.nick)

def CursorsSeparate (isup : ISupport) (network buffer : Bytes) (st : ChannelState) : Prop :=
  ∀ final, (memberPager isup network buffer st.topic).Ends (sortedEntries st) final →
    (memberPager isup network buffer st.topic).Separates Entry.rank (sortedEntries st) final

def Entry.shown (entry : Entry) : MemberData := (memberData entry.2).arrived

variable {isup : ISupport} {roster : Roster} {network buffer : Bytes} {st : ChannelState}
  {data : ChannelData}

theorem request_eq (found : roster.lookup (foldKey isup buffer) = some st) (after : Bytes) :
    request (some (isup, roster)) network buffer after =
      { network := delivered network
        buffer := delivered buffer
        joined := true
        topic := delivered st.topic
        members := (pageOf network buffer st.topic (entriesPast st (delivered after))).map
          Entry.shown
        truncated := decide (pageSize network buffer st.topic
          (entriesPast st (delivered after)) < (entriesPast st (delivered after)).length)
        membersAfter :=
          if pageSize network buffer st.topic (entriesPast st (delivered after)) <
              (entriesPast st (delivered after)).length then
            ((pageOf network buffer st.topic (entriesPast st (delivered after))).getLast?.map
              (memberPager isup network buffer st.topic).cursor).getD []
          else [] } := by
  unfold request
  rw [buildChannelData_eq found]
  unfold ChannelData.arrived
  refine (ChannelData.mk.injEq ..).mpr ⟨rfl, rfl, rfl, rfl, map_map, rfl, ?_⟩
  split
  · cases (pageOf network buffer st.topic (entriesPast st (delivered after))).getLast? with
    | none => rfl
    | some => rfl
  · rfl

theorem applyMemberPage_ends {st : Paging} (ends : (applyMemberPage st data).done = true)
    (whole : (applyMemberPage st data).degraded = false) :
    data.truncated = false ∧ (applyMemberPage st data).members = st.members ++ data.members := by
  unfold applyMemberPage at ends whole ⊢
  by_cases cut : (data.members.take (maxMembers - st.members.length)).length < data.members.length
  · rw [if_pos cut] at whole
    cases whole
  · rw [if_neg cut] at ends whole ⊢
    by_cases final : (!data.truncated) = true
    · rw [if_pos final]
      rw [length_take] at cut
      exact ⟨by simpa using final, by rw [take_of_length_le (by omega)]⟩
    · rw [if_neg final] at ends whole
      split at ends
      next stuck =>
        rw [if_pos stuck] at whole
        cases whole
      next moved =>
        rw [if_neg moved] at whole
        split at ends
        next full =>
          rw [if_pos full] at whole
          cases whole
        · cases ends

theorem applyMemberPage_goesOn {st : Paging} (goesOn : (applyMemberPage st data).done = false) :
    data.truncated = true ∧ data.members ≠ [] ∧
      (applyMemberPage st data).members = st.members ++ data.members ∧
      (applyMemberPage st data).after = data.membersAfter := by
  unfold applyMemberPage at goesOn ⊢
  by_cases cut : (data.members.take (maxMembers - st.members.length)).length < data.members.length
  · rw [if_pos cut] at goesOn
    cases goesOn
  · rw [if_neg cut] at goesOn ⊢
    rw [length_take] at cut
    have kept : data.members.take (maxMembers - st.members.length) = data.members :=
      take_of_length_le (by omega)
    rw [kept] at goesOn ⊢
    by_cases final : (!data.truncated) = true
    · rw [if_pos final] at goesOn
      cases goesOn
    · rw [if_neg final] at goesOn ⊢
      split at goesOn
      · cases goesOn
      next moved =>
        rw [if_neg moved]
        split at goesOn
        · cases goesOn
        next room =>
          rw [if_neg room]
          exact ⟨by simpa using final, fun none => moved (.inr (.inr none)), rfl, rfl⟩

theorem fetches_walk (found : roster.lookup (foldKey isup buffer) = some st) {paging : Paging}
    {result : Option Paging}
    (fetches : Fetches (request (some (isup, roster)) network buffer) paging result)
    {final : Paging} (ended : result = some final) (whole : final.degraded = false) :
    ∃ sent, (memberPager isup network buffer st.topic).Walk (sortedEntries st) paging.after sent ∧
      final.members = paging.members ++ sent.map Entry.shown := by
  induction fetches with
  | stale => cases ended
  | failed =>
    cases ended
    cases whole
  | @last paging ends =>
    obtain rfl := Option.some.inj ended
    obtain ⟨complete, members⟩ := applyMemberPage_ends ends whole
    rw [request_eq found] at complete
    rw [members, request_eq found]
    have size := pageSize_le network buffer st.topic (entriesPast st (delivered paging.after))
    have all : pageSize network buffer st.topic (entriesPast st (delivered paging.after)) =
        (entriesPast st (delivered paging.after)).length :=
      le_antisymm (by omega) (not_lt.mp (of_decide_eq_false complete))
    refine ⟨entriesPast st (delivered paging.after), Pager.Walk.last all, ?_⟩
    rw [pageOf, all, take_length]
  | @next paging result goesOn later ih =>
    obtain ⟨truncated, nonempty, members, after⟩ := applyMemberPage_goesOn goesOn
    obtain ⟨sent, walk, shown⟩ := ih ended
    rw [request_eq found] at truncated nonempty
    rw [members, request_eq found] at shown
    have more := of_decide_eq_true truncated
    rw [after, request_eq found] at walk
    rw [if_pos more] at walk
    rcases eq_nil_or_concat'
        (pageOf network buffer st.topic (entriesPast st (delivered paging.after)))
      with none | ⟨before, last, page⟩
    · rw [none] at nonempty
      exact absurd rfl nonempty
    · rw [page, getLast?_concat] at walk
      refine ⟨before ++ last :: sent, Pager.Walk.next more page walk, ?_⟩
      have joined : (before ++ last :: sent).map Entry.shown =
          (before ++ [last]).map Entry.shown ++ sent.map Entry.shown := by
        rw [← map_append, ← append_cons]
      rw [shown, page, joined, append_assoc]

theorem eligible_monotone {low high : Entry} (order : low.rank ≤ high.rank)
    (past : eligible after low.1 = true) : eligible after high.1 = true := by
  unfold eligible at past ⊢
  rw [Bool.or_eq_true, decide_eq_true_eq] at past ⊢
  exact past.imp_right fun below => below.trans_le order

/-- A walk over a roster that stays as it is, when it ends without a warning, has the members of the
channel, each once and in the order of their keys, exactly when every cursor separates the members
where its page ended. -/
theorem member_walk_complete_iff (found : roster.lookup (foldKey isup buffer) = some st)
    {final : Paging}
    (fetches : Fetches (request (some (isup, roster)) network buffer) {} (some final))
    (ended : final.done = true ∧ final.degraded = false) :
    ∃ sent, (memberPager isup network buffer st.topic).Walk (sortedEntries st) [] sent ∧
      final.members = sent.map Entry.shown ∧
      (sent = sortedEntries st ↔ CursorsSeparate isup network buffer st) := by
  obtain ⟨sent, walk, members⟩ := fetches_walk found fetches rfl ended.2
  refine ⟨sent, walk, members, ?_⟩
  refine walk.complete_iff (fun cursor low _ high _ order past => ?_) sortedEntries_strict
    (nil_append _).symm ?_
  · exact eligible_monotone order past
  · exact filter_eq_self.mpr fun entry _ => rfl

/-- Cursors that are valid UTF-8 come back as they were sent. -/
theorem cursorsSeparate_of_valid (valid : ∀ entry ∈ sortedEntries st,
      isup.fold entry.2.nick = entry.1 ∧ entry.1 ≠ [] ∧ validString entry.1 = true) :
    CursorsSeparate isup network buffer st := by
  intro final ends item _
  obtain ⟨folded, named, whole⟩ := valid final ends.mem
  have same : delivered final.1 = final.1 := delivered_eq_iff.mpr whole
  show eligible (delivered (delivered (isup.fold final.2.nick))) item.1 = _
  rw [folded, same, same, eligible, isEmpty_eq_false_iff.mpr named, Bool.false_or]
  exact decide_eq_decide.mpr Iff.rfl

/-! ### Walks over two pages -/

def rosterOf (st : ChannelState) : Roster := AList.singleton st.name st

def pageFrom (st : ChannelState) (after : Bytes) : ChannelData :=
  request (some ({}, rosterOf st)) (lit "net") st.name after

theorem fetches_two_pages {respond : Bytes → ChannelData} {cursor : Bytes}
    (truncated : (respond []).truncated = true) (named : (respond []).membersAfter = cursor)
    (nonempty : (respond []).members ≠ [])
    (size : (respond []).members.length + (respond cursor).members.length < maxMembers)
    (advances : cursor ≠ [] ∧ ¬units cursor ≤ units [])
    (complete : (respond cursor).truncated = false) :
    Fetches respond {}
      (some { members := (respond []).members ++ (respond cursor).members, after := cursor
              info := some ((respond []).joined, (respond []).topic), done := true }) := by
  have first : applyMemberPage {} (respond []) =
      { members := (respond []).members, after := cursor
        info := some ((respond []).joined, (respond []).topic) } := by
    have whole : (respond []).members.take maxMembers = (respond []).members :=
      take_of_length_le (by omega)
    have below : ¬ maxMembers ≤ (respond []).members.length := by omega
    simp [applyMemberPage, whole, truncated, named, nonempty, advances, below]
  have second : applyMemberPage
      { members := (respond []).members, after := cursor
        info := some ((respond []).joined, (respond []).topic) } (respond cursor) =
      { members := (respond []).members ++ (respond cursor).members, after := cursor
        info := some ((respond []).joined, (respond []).topic), done := true } := by
    have whole : (respond cursor).members.take (maxMembers - (respond []).members.length) =
        (respond cursor).members := take_of_length_le (by omega)
    simp [applyMemberPage, complete, whole]
  refine Fetches.next (by rw [first]) ?_
  rw [first, ← second]
  exact Fetches.last (by rw [second])

/-- A nick of two letters, in the order of the numbers. -/
def letters (number : Nat) : Bytes :=
  [0x61 + (number / 16).toUInt8, 0x61 + (number % 16).toUInt8]

/-- A channel of members whose nicks are in ascending order. -/
def channelOf (nicks : List Bytes) (ascending : (nicks.map rank).IsChain (· < ·)) :
    ChannelState where
  name := lit "#crowd"
  members :=
    { entries := nicks.map fun nick => ⟨nick, { nick }⟩
      nodupKeys := by
        rw [NodupKeys, keys, map_map]
        exact (map_id nicks).symm ▸ Nodup.of_map rank (isChain_iff_pairwise.mp ascending).nodup }

/-- One member more than a page holds. -/
def village : ChannelState := channelOf ((range 257).map letters) (by decide +kernel)

/-- The walk over the village asks twice and has every member. -/
theorem village_walked :
    ∃ final, Fetches (request (some ({}, rosterOf village)) (lit "net") village.name) {}
        (some final) ∧
      final.after = lit "pp" ∧ final.members = (sortedEntries village).map Entry.shown := by
  obtain ⟨truncated, cursor, size⟩ : (pageFrom village []).truncated = true ∧
      (pageFrom village []).membersAfter = lit "pp" ∧
      (pageFrom village []).members.length = 256 := by
    have found : (rosterOf village).lookup (foldKey {} village.name) = some village := rfl
    unfold pageFrom
    rw [request_eq found]
    decide +kernel
  obtain ⟨complete, rest⟩ : (pageFrom village (lit "pp")).truncated = false ∧
      (pageFrom village (lit "pp")).members.length = 1 := by
    decide +kernel
  have walk := fetches_two_pages truncated cursor (ne_nil_of_length_pos (by omega))
    (by rw [size, rest]; decide) ⟨by decide, by decide⟩ complete
  obtain ⟨sent, -, members, complete⟩ := member_walk_complete_iff rfl walk ⟨rfl, rfl⟩
  refine ⟨_, walk, rfl, ?_⟩
  rw [members, complete.mpr (cursorsSeparate_of_valid (by decide +kernel))]

/-! ### A cursor that comes back changed -/

/-- The nick `zé`. -/
def accented : Bytes := [0x7A, 0xC3, 0xA9]

/-- Nicks in ascending order: 255 of two letters, one that is not UTF-8, and `accented`. -/
def crowd : ChannelState :=
  channelOf ((range 255).map letters ++ [[0x7A, 0x80], accented]) (by decide +kernel)

theorem crowd_first :
    (pageFrom crowd []).truncated = true ∧
      (pageFrom crowd []).membersAfter = [0x7A, 0xEF, 0xBF, 0xBD] ∧
      (pageFrom crowd []).members.length = 256 ∧
      ((pageFrom crowd []).members.all fun member => member.nick ≠ accented) = true := by
  have found : (rosterOf crowd).lookup (foldKey {} crowd.name) = some crowd := rfl
  unfold pageFrom
  rw [request_eq found]
  decide +kernel

/-- The walk over the crowded channel ends without a warning and lacks a member: the cursor lies
behind the key of the last nick. -/
theorem member_walk_skips :
    crowd.members.lookup accented = some { nick := accented } ∧
      ∃ final, Fetches (request (some ({}, rosterOf crowd)) (lit "net") crowd.name) {}
          (some final) ∧
        final.done = true ∧ final.degraded = false ∧ final.members.length = 256 ∧
        ∀ member ∈ final.members, member.nick ≠ accented := by
  obtain ⟨truncated, cursor, size, absent⟩ := crowd_first
  obtain ⟨complete, empty⟩ :
      (pageFrom crowd [0x7A, 0xEF, 0xBF, 0xBD]).truncated = false ∧
        (pageFrom crowd [0x7A, 0xEF, 0xBF, 0xBD]).members = [] := by
    decide +kernel
  have walk := fetches_two_pages truncated cursor (ne_nil_of_length_pos (by omega))
    (by rw [size, empty]; decide) ⟨by decide, by decide⟩ complete
  rw [empty, append_nil] at walk
  refine ⟨by decide +kernel, _, walk, rfl, rfl, ?_, fun member inside => ?_⟩
  · dsimp only
    exact size
  · dsimp only at inside
    exact of_decide_eq_true (all_eq_true.mp absent member inside)

end Ircthing.Hub
