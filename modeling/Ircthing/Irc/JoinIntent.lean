/-
This file models the rejoin set of a connection: the channels a reconnect joins again, each with its
key, and the keys of the JOINs that were sent.
-/

import Ircthing.Irc.Framing

namespace Ircthing.Irc

open Library List Option Dict

/-! ### Keys -/

def maxJoinKeyBytes : Nat := 64

def maxJoinedChannels : Nat := 4096

def maxChannelNameBytes : Nat := 512

def validJoinKey (key : Bytes) : Bool :=
  key ≠ [] && key.length ≤ maxJoinKeyBytes && !containsAny key (lit " ,\r\n\x00")

def joinMsg (channel key : Bytes) : IrcMessage :=
  if key = [] then newMsg "JOIN" [channel] else newMsg "JOIN" [channel, key]

def checkLineLen (message : IrcMessage) (limit : Nat) : Bool :=
  (serialize .messageTags { message with tags := [] }).length + 2 ≤ limit

def rejoinable (isup : ISupport) (channel key : Bytes) : Bool :=
  (checkFraming (joinMsg channel key)).isOk &&
    checkLineLen (scrubUTF8 isup (joinMsg channel key)) defaultLineLen

/-! ### The rejoin set -/

/-- The rejoin set with the keys of the JOINs sent on the connection: `joined` and `joinKeys`. -/
structure JoinIntent where
  joined : Dict Bytes Bytes := ∅
  joinKeys : Dict Bytes Bytes := ∅
deriving DecidableEq

def JoinIntent.seed (channels : List Bytes) (channelKeys : Dict Bytes Bytes) : JoinIntent where
  joined := channels.foldl
    (fun joined channel => joined.insert channel ((channelKeys.lookup channel).getD [])) ∅

namespace JoinIntent

section Calls

variable (isup : ISupport)

/-- The loop of `noteJoinKeys`: the channels left, with the keys left. -/
def noteLoop (joinKeys : Dict Bytes Bytes) : List Bytes → List Bytes → Dict Bytes Bytes
  | [], _ => joinKeys
  | channel :: channels, keys =>
    if channel = [] ∨ !isup.isChannel channel ∨ maxChannelNameBytes < channel.length then
      noteLoop joinKeys channels keys.tail
    else if (joinKeys.lookup (isup.fold channel)).isNone ∧ maxJoinedChannels ≤ joinKeys.size then
      noteLoop joinKeys channels keys.tail
    else
      noteLoop (joinKeys.insert (isup.fold channel) ((keys.head?.filter validJoinKey).getD []))
        channels keys.tail

def noteJoinKeys (message : IrcMessage) (intent : JoinIntent) : JoinIntent :=
  if message.command ≠ lit "JOIN" ∨ message.params = [] then intent
  else
    { intent with
      joinKeys := noteLoop isup intent.joinKeys (splitByte 0x2C (message.param 0))
        (if 1 < message.params.length then splitByte 0x2C (message.param 1) else []) }

def channelKey (intent : JoinIntent) (channel : Bytes) : Bytes :=
  (intent.joinKeys.lookup (isup.fold channel)).getD []

variable (visit : Iteration Bytes) (channel : Bytes)

def inheritedKey (intent : JoinIntent) : Bytes :=
  ((visit.order intent.joined.keys).find? fun other =>
    (intent.joined.lookup other).getD [] ≠ [] ∧ isup.fold other = isup.fold channel).elim []
      fun other => (intent.joined.lookup other).getD []

def rememberedKey (intent : JoinIntent) : Bytes :=
  match intent.joinKeys.lookup (isup.fold channel), intent.joined.lookup channel with
  | some key, _ => key
  | none, some key => key
  | none, none => intent.inheritedKey isup visit channel

variable (channel key : Bytes)

/-- The key the channel can be joined with again; `none` when it can not be joined at all. -/
def usableKey : Option Bytes :=
  if rejoinable isup channel key then some key
  else if key = [] ∨ !rejoinable isup channel [] then none
  else some []

def addChannel (intent : JoinIntent) : JoinIntent :=
  let spellings :=
    if (intent.joinKeys.lookup (isup.fold channel)).isSome then
      intent.joined.mapEntries fun other held =>
        if isup.fold other = isup.fold channel then key else held
    else intent.joined
  { intent with joined := spellings.insert channel key }

def rememberJoinIntent (channel : Bytes) (intent : JoinIntent) : Except String JoinIntent :=
  if channel = [] ∨ !isup.isChannel channel then .ok intent
  else
    match usableKey isup channel (intent.rememberedKey isup visit channel) with
    | none => .ok intent
    | some key =>
      if (intent.joined.lookup channel).isNone ∧ maxJoinedChannels ≤ intent.joined.size then
        .error "irc: joined-channel set exceeded 4096"
      else .ok (intent.addChannel isup channel key)

def forgetJoinIntent (list : Bytes) (intent : JoinIntent) : JoinIntent :=
  let parted := (splitByte 0x2C list).map isup.fold
  { joined := intent.joined.keep fun channel _ => !parted.contains (isup.fold channel)
    joinKeys := parted.foldl (fun joinKeys folded => joinKeys.erase folded) intent.joinKeys }

def trackJoinIntent (nick : Bytes) (visit : Iteration Bytes) (message : IrcMessage)
    (intent : JoinIntent) : Except String JoinIntent :=
  if message.source.all fun source => isup.fold source.name ≠ isup.fold nick then .ok intent
  else if message.command = lit "JOIN" then
    intent.rememberJoinIntent isup visit (message.param 0)
  else if message.command = lit "PART" then .ok (intent.forgetJoinIntent isup (message.param 0))
  else .ok intent

end Calls

/-! ### Names and keys that can be sent -/

/-- The channel names of a well-behaved server: valid UTF-8 of at most 200 bytes, without a space,
a comma or a control byte. A name with a colon in front can not be followed by a key. -/
def Named (isup : ISupport) (channel : Bytes) : Prop :=
  isup.isChannel channel = true ∧ validString channel = true ∧ channel.length ≤ 200 ∧
    (channel.all fun byte => 0x20 < byte && byte != 0x7F && byte != 0x2C) = true ∧
    channel.head? ≠ some 0x3A

instance (isup : ISupport) (channel : Bytes) : Decidable (Named isup channel) :=
  inferInstanceAs (Decidable (_ ∧ _))

def Usable (key : Bytes) : Prop := key = [] ∨ validJoinKey key = true ∧ validString key = true

variable {isup : ISupport} {channel key : Bytes} {intent : JoinIntent}
  {visit : Iteration Bytes}

section

variable (named : Named isup channel)
include named

theorem Named.ne_nil : channel ≠ [] := by
  rintro rfl
  cases named.1

theorem Named.plain {byte : UInt8} (member : byte ∈ channel) :
    0x20 < byte ∧ byte ≠ 0x2C := by
  have plain := all_eq_true.mp named.2.2.2.1 byte member
  simp only [Bool.and_eq_true, decide_eq_true_eq, bne_iff_ne] at plain
  exact ⟨plain.1.1, plain.2⟩

theorem Named.unframed : hasFramingBytes channel = false := by
  rw [hasFramingBytes, List.any_eq_false]
  intro byte member framed
  have plain := (named.plain member).1
  simp only [isFramingByte, Bool.or_eq_true, beq_iff_eq] at framed
  rcases framed with (rfl | rfl) | rfl
  · exact absurd plain (by decide)
  · exact absurd plain (by decide)
  · exact absurd plain (by decide)

theorem Named.whole : misreadInside channel = false := by
  have unspaced : 0x20 ∉ channel := fun space => absurd (named.plain space).1 (by decide)
  simp [misreadInside, named.ne_nil, named.2.2.2.2, unspaced]

end

theorem validJoinKey_spec (valid : validJoinKey key = true) :
    key ≠ [] ∧ key.length ≤ 64 ∧ hasFramingBytes key = false := by
  simp only [validJoinKey, Bool.and_eq_true, decide_eq_true_eq, Bool.not_eq_true'] at valid
  obtain ⟨⟨filled, short⟩, clean⟩ := valid
  refine ⟨filled, short, ?_⟩
  rw [containsAny, List.any_eq_false] at clean
  rw [hasFramingBytes, List.any_eq_false]
  intro byte member framed
  simp only [isFramingByte, Bool.or_eq_true, beq_iff_eq] at framed
  rcases framed with (rfl | rfl) | rfl
  · exact clean _ member (by decide)
  · exact clean _ member (by decide)
  · exact clean _ member (by decide)

theorem scrubUTF8_of_valid {isup : ISupport} {message : IrcMessage}
    (valid : ∀ param ∈ message.params, validString param = true) :
    scrubUTF8 isup message = message := by
  rw [scrubUTF8]
  split
  · rfl
  · have same : message.params.map (fun param =>
        if validString param then param else toValidUTF8 param replacementText) =
        message.params :=
      (map_congr_left fun param member => if_pos (valid param member)).trans (map_id' _)
    rw [same]

theorem length_writeParams_le (params : List Bytes) :
    (writeParams params).length ≤ (params.map fun param => param.length + 2).foldr (· + ·) 0 := by
  fun_induction writeParams params with
  | case1 => exact le_rfl
  | case2 => simp
  | case3 => simp
  | case4 =>
    simp only [map_cons, foldr_cons, length_append, length_cons] at *
    omega

theorem rejoinable_of_usable (isup : ISupport) {other : ISupport} (named : Named other channel)
    (usable : Usable key) : rejoinable isup channel key = true := by
  obtain ⟨valid, framing, _⟩ :
      (∀ param ∈ (joinMsg channel key).params, validString param = true) ∧
      SafeParams (joinMsg channel key).params ∧
      ((joinMsg channel key).params.map fun param => param.length + 2).foldr (· + ·) 0 ≤ 300 := by
    have bound := named.2.2.1
    rcases usable with rfl | ⟨sendable, valid⟩
    · refine ⟨?_, .last named.unframed, ?_⟩
      · simpa [joinMsg, newMsg] using named.2.1
      · simp [joinMsg, newMsg]
        omega
    · obtain ⟨filled, _, unframed⟩ := validJoinKey_spec sendable
      rw [joinMsg, if_neg filled]
      refine ⟨?_, .cons named.unframed named.whole (.last unframed), ?_⟩
      · simpa [newMsg] using ⟨named.2.1, valid⟩
      · simp [newMsg]
        omega
  have bare : (joinMsg channel key).command = lit "JOIN" ∧ (joinMsg channel key).source = none ∧
      (joinMsg channel key).tags = [] := by
    rw [joinMsg]
    split
    · exact ⟨rfl, rfl, rfl⟩
    · exact ⟨rfl, rfl, rfl⟩
  have framed : checkFraming (joinMsg channel key) = .ok () := by
    rw [checkFraming_ok_iff, bare.1, bare.2.1, bare.2.2]
    exact ⟨by decide, framing, rfl, rfl⟩
  have written := length_writeParams_le (joinMsg channel key).params
  have untagged : TagWriter.messageTags.written [] = [] := rfl
  have word : (lit "JOIN").length = 4 := by decide
  rw [rejoinable, framed, scrubUTF8_of_valid valid, checkLineLen, serialize, bare.1, bare.2.1,
    untagged, Bool.and_eq_true]
  refine ⟨rfl, decide_eq_true ?_⟩
  simp only [nil_append, elim_none, length_append, word, defaultLineLen]
  omega

theorem lookup_seed (channels : List Bytes) (channelKeys : Dict Bytes Bytes) (channel : Bytes) :
    (channel ∈ channels → (seed channels channelKeys).joined.lookup channel =
        some ((channelKeys.lookup channel).getD [])) ∧
      (channel ∉ channels → (seed channels channelKeys).joined.lookup channel = none) :=
  lookup_foldl_insert (fun channel => (channelKeys.lookup channel).getD []) channels ∅ channel

/-! ### Noting the keys of a JOIN -/

def Noted (joinKeys : Dict Bytes Bytes) : Prop :=
  ∀ folded key, joinKeys.lookup folded = some key → Usable key

theorem noted_noteLoop {joinKeys : Dict Bytes Bytes} {channels keys : List Bytes}
    (noted : Noted joinKeys) (valid : ∀ key ∈ keys, validString key = true) :
    Noted (noteLoop isup joinKeys channels keys) := by
  fun_induction noteLoop isup joinKeys channels keys with
  | case1 => exact noted
  | case2 _ _ _ _ _ ih =>
    exact ih noted fun key member => valid key (mem_of_mem_tail member)
  | case3 _ _ _ _ _ _ ih =>
    exact ih noted fun key member => valid key (mem_of_mem_tail member)
  | case4 _ _ _ keys _ _ ih =>
    refine ih (fun folded key found => ?_) fun key member =>
      valid key (mem_of_mem_tail member)
    rw [lookup_insert_eq] at found
    split at found
    · cases keys with
      | nil =>
        cases found
        exact .inl rfl
      | cons first =>
        cases sendable : validJoinKey first with
        | false =>
          simp [sendable, Option.filter] at found
          exact .inl found
        | true =>
          simp [sendable, Option.filter] at found
          rw [← found]
          exact .inr ⟨sendable, valid first mem_cons_self⟩
    · exact noted folded key found

theorem noteJoinKeys_spec (isup : ISupport) (message : IrcMessage) (noted : Noted intent.joinKeys)
    (valid : ∀ key ∈ splitByte 0x2C (message.param 1), validString key = true) :
    (intent.noteJoinKeys isup message).joined = intent.joined ∧
      Noted (intent.noteJoinKeys isup message).joinKeys := by
  rw [noteJoinKeys]
  split
  · exact ⟨rfl, noted⟩
  · refine ⟨rfl, noted_noteLoop noted fun key member => ?_⟩
    split at member
    · exact valid key member
    · cases member

/-! ### Remembering a channel -/

theorem inheritedKey_spec {isup : ISupport} {channel : Bytes} {intent : JoinIntent} :
    (∃ other, isup.fold other = isup.fold channel ∧
        intent.joined.lookup other = some (intent.inheritedKey isup visit channel)) ∨
      intent.inheritedKey isup visit channel = [] ∧
        ∀ other key, isup.fold other = isup.fold channel →
          intent.joined.lookup other = some key → key = [] := by
  rw [inheritedKey]
  cases found : (visit.order intent.joined.keys).find? fun other =>
      (intent.joined.lookup other).getD [] ≠ [] ∧ isup.fold other = isup.fold channel with
  | none =>
    refine .inr ⟨rfl, fun other key same held => ?_⟩
    by_contra filled
    have listed : other ∈ visit.order intent.joined.keys := by
      rw [(visit.perm _).mem_iff, ← AList.mem_keys, ← AList.lookup_isSome, held]
      rfl
    have skipped := find?_eq_none.mp found other listed
    rw [held] at skipped
    exact skipped (decide_eq_true ⟨filled, same⟩)
  | some other =>
    have passed := find?_some found
    rw [decide_eq_true_eq] at passed
    obtain ⟨filled, same⟩ := passed
    refine .inl ⟨other, same, ?_⟩
    cases held : intent.joined.lookup other with
    | none =>
      rw [held] at filled
      exact absurd rfl filled
    | some => rw [elim_some, held, getD_some]

theorem rememberedKey_spec (isup : ISupport) (visit : Iteration Bytes) (channel : Bytes)
    (intent : JoinIntent) :
    intent.joinKeys.lookup (isup.fold channel) = some (intent.rememberedKey isup visit channel) ∨
      intent.joinKeys.lookup (isup.fold channel) = none ∧
        ((∃ other, isup.fold other = isup.fold channel ∧
            intent.joined.lookup other = some (intent.rememberedKey isup visit channel)) ∨
          intent.rememberedKey isup visit channel = [] ∧
            ∀ other key, isup.fold other = isup.fold channel →
              intent.joined.lookup other = some key → key = []) := by
  rw [rememberedKey]
  cases noted : intent.joinKeys.lookup (isup.fold channel) with
  | some => exact .inl rfl
  | none =>
    refine .inr ⟨rfl, ?_⟩
    cases held : intent.joined.lookup channel with
    | some => exact .inl ⟨channel, rfl, held⟩
    | none => exact inheritedKey_spec

theorem lookup_addChannel (other : Bytes) :
    (intent.addChannel isup channel key).joined.lookup other = if other = channel then some key
      else if (intent.joinKeys.lookup (isup.fold channel)).isSome = true ∧
          isup.fold other = isup.fold channel then
        (intent.joined.lookup other).map fun _ => key
      else intent.joined.lookup other := by
  rw [addChannel]
  rw [lookup_insert_eq]
  by_cases same : other = channel
  · rw [if_pos same, if_pos same]
  · rw [if_neg same, if_neg same]
    by_cases noted : (intent.joinKeys.lookup (isup.fold channel)).isSome = true
    · rw [if_pos noted, lookup_mapEntries]
      by_cases spelling : isup.fold other = isup.fold channel
      · rw [if_pos ⟨noted, spelling⟩]
        simp [spelling]
      · rw [if_neg fun both => spelling both.2]
        simp [spelling]
    · rw [if_neg noted, if_neg fun both => noted both.1]

theorem isSome_addChannel (other : Bytes) :
    ((intent.addChannel isup channel key).joined.lookup other).isSome = true ↔
      other = channel ∨ (intent.joined.lookup other).isSome = true := by
  rw [lookup_addChannel]
  by_cases same : other = channel
  · simp [same]
  · rw [if_neg same]
    split
    · simp [same]
    · simp [same]

theorem rememberJoinIntent_eq (named : Named isup channel)
    (usable : Usable (intent.rememberedKey isup visit channel))
    (room : intent.joined.size < maxJoinedChannels) :
    intent.rememberJoinIntent isup visit channel =
      .ok (intent.addChannel isup channel (intent.rememberedKey isup visit channel)) := by
  rw [rememberJoinIntent, if_neg, usableKey, if_pos (rejoinable_of_usable isup named usable)]
  · dsimp only
    rw [if_neg fun full => absurd room (Nat.not_lt.mpr full.2)]
  · rintro (empty | other)
    · exact named.ne_nil empty
    · rw [named.1] at other
      cases other

/-! ### Forgetting channels -/

theorem lookup_forget_eq_some (list : Bytes) :
    (intent.forgetJoinIntent isup list).joined.lookup channel = some key ↔
      intent.joined.lookup channel = some key ∧
        isup.fold channel ∉ (splitByte 0x2C list).map isup.fold := by
  show (intent.joined.keep _).lookup channel = _ ↔ _
  rw [lookup_keep, filter_eq_some_iff, Bool.not_eq_true', contains_eq_mem, decide_eq_false_iff_not]

theorem noted_forget (noted : Noted intent.joinKeys) (list : Bytes) :
    Noted (intent.forgetJoinIntent isup list).joinKeys := by
  intro folded key found
  have erased :=
    lookup_foldl_erase ((splitByte 0x2C list).map isup.fold) intent.joinKeys folded
  by_cases parted : folded ∈ (splitByte 0x2C list).map isup.fold
  · cases (erased.1 parted).symm.trans found
  · exact noted folded key ((erased.2 parted).symm.trans found)

end JoinIntent

end Ircthing.Irc
