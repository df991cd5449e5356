/-
This file models how the hub keeps the channel list of a stored network definition in step with our
own JOINs and PARTs.
-/

import Ircthing.Golang.Json
import Ircthing.Irc.JoinIntent

namespace Ircthing.Hub

open Library Irc Json List JoinIntent Dict

variable {channel key : Bytes} {keys : Dict Bytes Bytes}

/-! ### The stored definition -/

/-- `maxChannels` and `maxPersistedChannels`. -/
def maxPersistedChannels : Nat := 4096

/-- `maxChannelLen` and `maxPersistedChannelLen`. -/
def maxPersistedChannelLen : Nat := 200

def maxChannelKeyLen : Nat := 64

def validChannelKey (key : Bytes) : Bool :=
  key ≠ [] && key.length ≤ maxChannelKeyLen && !containsAny key (lit " ,\r\n\x00")

/-- The channels of a network definition and their keys, by the exact spelling of the entry. -/
structure Definition where
  channels : List Bytes := []
  channelKeys : Dict Bytes Bytes := ∅
deriving DecidableEq

namespace Definition

/-- A name `Validate` accepts. -/
def storable (channel : Bytes) : Bool :=
  channel ≠ [] && !containsAny channel (lit " \r\n\x00") && channel.length ≤ maxPersistedChannelLen

variable (definition : Definition)

/-- What `Validate` asks of the channels and their keys. -/
def validates : Bool :=
  definition.channels.length ≤ maxPersistedChannels && definition.channels.all storable &&
    definition.channelKeys.size ≤ maxPersistedChannels &&
    definition.channelKeys.entries.all fun entry => storable entry.1 && validChannelKey entry.2

def reread : Definition where
  channels := definition.channels.map delivered
  channelKeys := (sortStrings definition.channelKeys.keys).foldl
    (fun keys channel => keys.insert (delivered channel)
      (delivered ((definition.channelKeys.lookup channel).getD []))) ∅

end Definition

/-! ### Edits -/

section Edits

variable (fold : Bytes → Bytes)

def firstSpellings (wanted : List Bytes) : List (Bytes × Bytes) :=
  wanted.foldl (fun firsts name =>
    if firsts.any fun first => first.1 = fold name then firsts
    else firsts ++ [(fold name, name)]) []

def addLoop (present out : List Bytes) : List (Bytes × Bytes) → List Bytes × Bool
  | [] => (out, false)
  | (folded, name) :: rest =>
    if present.contains folded || maxPersistedChannels ≤ out.length then addLoop present out rest
    else ((addLoop (folded :: present) (out ++ [name]) rest).1, true)

def editChannelList (channels wanted : List Bytes) (add : Bool) : List Bytes × Bool :=
  let firsts := firstSpellings fold wanted
  if add then addLoop (channels.map fold) channels firsts
  else
    (channels.filter fun channel => !firsts.any fun first => first.1 = fold channel,
      channels.any fun channel => firsts.any fun first => first.1 = fold channel)

def storeKey (channels : List Bytes) (keys : Dict Bytes Bytes) (edited : Dict Bytes Bytes × Bool)
    (wanted : Bytes) : Dict Bytes Bytes × Bool :=
  match keys.lookup wanted,
    (channels.filter fun channel => fold channel = fold wanted).getLast? with
  | some key, some name =>
    if key = [] ∨ edited.1.lookup name = some key then edited
    else (edited.1.insert name key, true)
  | _, _ => edited

def editChannelKeys (stored : Dict Bytes Bytes) (channels wanted : List Bytes)
    (keys : Dict Bytes Bytes) (add : Bool) : Dict Bytes Bytes × Bool :=
  if !add then
    (stored.keep fun channel _ => !(wanted.map fold).contains (fold channel),
      stored.keys.any fun channel => (wanted.map fold).contains (fold channel))
  else if keys.entries = [] then (stored, false)
  else wanted.foldl (storeKey fold channels keys) (stored, false)

/-- `updateAutojoinLocked`. -/
def updateAutojoin (stores : Bool) (channels : List Bytes) (keys : Dict Bytes Bytes) (add : Bool)
    (definition : Definition) : Definition :=
  if !definition.validates then definition
  else
    let list := editChannelList fold definition.channels channels add
    let edited := editChannelKeys fold definition.channelKeys list.1 channels keys add
    if !list.2 && !edited.2 then definition
    else if stores then ({ channels := list.1, channelKeys := edited.1 } : Definition).reread
    else definition

end Edits

section EditLemmas

variable {fold : Bytes → Bytes} {edited : Dict Bytes Bytes × Bool} {stored : Dict Bytes Bytes}
variable {channels wanted : List Bytes} {keys : Dict Bytes Bytes}

theorem any_firstSpellings (fold : Bytes → Bytes) (wanted : List Bytes) (folded : Bytes) :
    ((firstSpellings fold wanted).any fun first => first.1 = folded) = true ↔
      folded ∈ wanted.map fold := by
  have looped : ∀ firsts : List (Bytes × Bytes), ((wanted.foldl (fun firsts name =>
        if firsts.any fun first => first.1 = fold name then firsts
        else firsts ++ [(fold name, name)]) firsts).any fun first => first.1 = folded) = true ↔
        (firsts.any fun first => first.1 = folded) = true ∨ folded ∈ wanted.map fold := by
    induction wanted with
    | nil => simp
    | cons name _ ih =>
      intro firsts
      rw [foldl_cons, ih, map_cons, mem_cons]
      by_cases known : (firsts.any fun first => decide (first.1 = fold name)) = true
      · rw [if_pos known]
        by_cases same : folded = fold name
        · rw [same]
          simp only [known, true_or]
        · simp only [same, false_or]
      · rw [if_neg known, any_append, Bool.or_eq_true]
        simp only [any_cons, any_nil, Bool.or_false, decide_eq_true_eq, or_assoc,
          eq_comm (a := folded)]
  rw [firstSpellings, looped []]
  simp

theorem addLoop_unchanged {present out : List Bytes} {firsts : List (Bytes × Bytes)}
    (same : (addLoop present out firsts).2 = false) : (addLoop present out firsts).1 = out := by
  induction firsts with
  | nil => rfl
  | cons _ _ ih =>
    rw [addLoop] at same ⊢
    split at same
    · next skipped =>
      rw [if_pos skipped]
      exact ih same
    · cases same

variable {add : Bool}

theorem editChannelList_unchanged (same : (editChannelList fold channels wanted add).2 = false) :
    (editChannelList fold channels wanted add).1 = channels := by
  rw [editChannelList] at same ⊢
  cases add with
  | true => exact addLoop_unchanged same
  | false =>
    refine filter_eq_self.mpr fun channel member => ?_
    have kept := any_eq_false.mp same channel member
    rwa [Bool.not_eq_true', ← Bool.not_eq_true]

theorem editChannelList_add (fold : Bytes → Bytes) (room : channels.length < maxPersistedChannels) :
    (editChannelList fold channels [channel] true).1 =
      if (channels.map fold).contains (fold channel) then channels else channels ++ [channel] := by
  show (addLoop (channels.map fold) channels [(fold channel, channel)]).1 = _
  have short : ¬ maxPersistedChannels ≤ channels.length := Nat.not_le.mpr room
  rw [addLoop]
  by_cases present : (channels.map fold).contains (fold channel) = true
  · rw [if_pos (by rw [present]; rfl), if_pos present]
    rfl
  · rw [if_neg present, if_neg fun skipped => ?_]
    · rfl
    · rw [Bool.or_eq_true, decide_eq_true_eq] at skipped
      exact skipped.elim present short

theorem storeKey_cases (fold : Bytes → Bytes) {channels : List Bytes}
    {edited : Dict Bytes Bytes × Bool} {wanted : Bytes} :
    storeKey fold channels keys edited wanted = edited ∨
      (storeKey fold channels keys edited wanted).2 = true := by
  rw [storeKey]
  split
  · split
    · exact .inl rfl
    · exact .inr rfl
  · exact .inl rfl

theorem foldl_storeKey_changed (changed : edited.2 = true) :
    (wanted.foldl (storeKey fold channels keys) edited).2 = true := by
  induction wanted generalizing edited with
  | nil => exact changed
  | cons _ _ ih =>
    refine ih ?_
    rcases storeKey_cases fold with kept | new
    · rw [kept, changed]
    · exact new

theorem foldl_storeKey_unchanged
    (same : (wanted.foldl (storeKey fold channels keys) edited).2 = false) :
    wanted.foldl (storeKey fold channels keys) edited = edited := by
  induction wanted generalizing edited with
  | nil => rfl
  | cons _ _ ih =>
    rw [foldl_cons] at same ⊢
    rw [ih same]
    rcases storeKey_cases fold with kept | changed
    · exact kept
    · rw [foldl_storeKey_changed changed] at same
      cases same

theorem editChannelKeys_unchanged
    (same : (editChannelKeys fold stored channels wanted keys add).2 = false) (channel : Bytes) :
    (editChannelKeys fold stored channels wanted keys add).1.lookup channel =
      stored.lookup channel := by
  rw [editChannelKeys] at same ⊢
  cases add with
  | true =>
    rw [if_neg (by decide)] at same ⊢
    split at same
    · next none => rw [if_pos none]
    · next some =>
      rw [if_neg some, foldl_storeKey_unchanged same]
  | false =>
    rw [if_pos (by decide)] at same ⊢
    rw [lookup_keep]
    cases found : stored.lookup channel with
    | none => rfl
    | some =>
      have listed : channel ∈ stored.keys := by
        rw [← AList.mem_keys, ← AList.lookup_isSome, found]
        rfl
      have kept := any_eq_false.mp same channel listed
      rw [Bool.not_eq_true] at kept
      simp only [Option.filter_some, kept]
      rfl

variable {entry : Bytes}

theorem lookup_editChannelKeys_add (distinct : (channels.map fold).Nodup) (filled : key ≠ [])
    (listed : entry ∈ channels) (same : fold entry = fold channel) (other : Bytes) :
    (editChannelKeys fold stored channels [channel] ((∅ : Dict Bytes Bytes).insert channel key)
      true).1.lookup other = if other = entry then some key else stored.lookup other := by
  have found : ((∅ : Dict Bytes Bytes).insert channel key).lookup channel = some key :=
    AList.lookup_insert _
  have only : (channels.filter fun other => fold other = fold channel) = [entry] := by
    refine perm_singleton.mp ((perm_ext_iff_of_nodup (distinct.of_map.filter _)
      (nodup_singleton entry)).mpr fun other => ?_)
    rw [mem_filter, mem_singleton, decide_eq_true_eq]
    constructor
    · rintro ⟨member, spelled⟩
      exact inj_on_of_nodup_map distinct member listed (spelled.trans same.symm)
    · rintro rfl
      exact ⟨listed, same⟩
  have some : ((∅ : Dict Bytes Bytes).insert channel key).entries ≠ [] :=
    cons_ne_nil _ _
  rw [editChannelKeys, if_neg (by decide), if_neg some, foldl_cons, foldl_nil, storeKey,
    found, only]
  dsimp only [getLast?_singleton]
  split
  · next held =>
    obtain held := held.resolve_left filled
    split
    · next at_ => rw [at_, held]
    · rfl
  · rw [lookup_insert_eq]

end EditLemmas

/-! ### Lines -/

section Lines

variable (isup : ISupport) (nick : Bytes)

def autojoinChange (message : IrcMessage) : Bytes × Bool :=
  if message.command = lit "JOIN" ∨ message.command = lit "PART" then
    if nick = [] ∨ message.source.all fun source => isup.fold source.name ≠ isup.fold nick then
      ([], false)
    else (message.param 0, message.command = lit "JOIN")
  else if message.command = lit "470" then
    if nick = [] ∨ isup.fold (message.param 0) ≠ isup.fold nick then ([], false)
    else (message.param 1, false)
  else ([], false)

def persistedNames (add : Bool) (list : Bytes) : List Bytes :=
  (splitByte 0x2C list).filter fun channel =>
    channel ≠ [] && isup.isChannel channel && channel.length ≤ maxPersistedChannelLen &&
      !(add && (containsAny channel (lit " \r\n\x00") || !validString channel))

def persistedKeys (intent : JoinIntent) (channels : List Bytes) : Dict Bytes Bytes :=
  channels.foldl (fun keys channel =>
    if intent.channelKey isup channel ≠ [] && validChannelKey (intent.channelKey isup channel) then
      keys.insert channel (intent.channelKey isup channel)
    else keys) ∅

/-- `persistAutojoin`, with whether the lock of the network operations is free and whether the
store accepts the definition. -/
def persistAutojoin (free stores : Bool) (message : IrcMessage) (intent : JoinIntent)
    (definition : Definition) : Definition :=
  let change := autojoinChange isup nick message
  if change.1 = [] then definition
  else if !free then definition
  else
    let channels := persistedNames isup change.2 change.1
    if channels = [] then definition
    else
      updateAutojoin isup.fold stores channels
        (if change.2 then persistedKeys isup intent channels else ∅) change.2 definition

end Lines

/-! ### Definitions that stay valid -/

/-- A definition that can be read again, with one entry for each folded name and no key that
belongs to no entry. -/
structure Sound (isup : ISupport) (definition : Definition) : Prop where
  short : definition.channels.length ≤ maxPersistedChannels
  names : ∀ channel ∈ definition.channels,
    Definition.storable channel = true ∧ validString channel = true
  distinct : (definition.channels.map isup.fold).Nodup
  keyed : ∀ channel key, definition.channelKeys.lookup channel = some key →
    channel ∈ definition.channels ∧ validChannelKey key = true ∧ validString key = true

def Alike (first second : Definition) : Prop :=
  first.channels = second.channels ∧
    ∀ channel, first.channelKeys.lookup channel = second.channelKeys.lookup channel

variable {isup : ISupport} {definition edited next : Definition} {intent : JoinIntent}
  {channels : List Bytes}

section

variable (sound : Sound isup definition)
include sound

theorem Sound.of_alike (alike : Alike edited definition) :
    Sound isup edited where
  short := alike.1 ▸ sound.short
  names := alike.1 ▸ sound.names
  distinct := alike.1 ▸ sound.distinct
  keyed channel key found := by
    rw [alike.2] at found
    rw [alike.1]
    exact sound.keyed channel key found

theorem Sound.validates : definition.validates = true := by
  have within : definition.channelKeys.keys ⊆ definition.channels := by
    intro channel member
    rw [← AList.mem_keys, ← AList.lookup_isSome] at member
    obtain ⟨key, found⟩ := Option.isSome_iff_exists.mp member
    exact (sound.keyed channel key found).1
  have few := (size_le_length within).trans sound.short
  simp only [Definition.validates, Bool.and_eq_true, decide_eq_true_eq, all_eq_true]
  refine ⟨⟨⟨sound.short, fun channel member => (sound.names channel member).1⟩, few⟩, ?_⟩
  rintro ⟨channel, key⟩ member
  obtain ⟨listed, valid, _⟩ := sound.keyed channel key (lookup_of_mem member)
  exact ⟨(sound.names channel listed).1, valid⟩

theorem Sound.reread : Alike definition.reread definition := by
  have named : ∀ channel ∈ definition.channels, delivered channel = channel :=
    fun channel member => delivered_of_valid (sound.names channel member).2
  have same : definition.reread.channelKeys =
      (sortStrings definition.channelKeys.keys).foldl (fun keys channel =>
        keys.insert channel ((definition.channelKeys.lookup channel).getD [])) ∅ := by
    refine foldl_ext _ _ _ fun keys channel member => ?_
    rw [sortStrings, (perm_insertionSort _ _).mem_iff, ← AList.mem_keys,
      ← AList.lookup_isSome] at member
    obtain ⟨key, found⟩ := Option.isSome_iff_exists.mp member
    obtain ⟨listed, _, utf8⟩ := sound.keyed channel key found
    rw [named channel listed, found, Option.getD_some, delivered_of_valid utf8]
  refine ⟨(map_congr_left named).trans (map_id' _), fun channel => ?_⟩
  have stored := lookup_foldl_insert
    (fun channel => (definition.channelKeys.lookup channel).getD [])
    (sortStrings definition.channelKeys.keys) ∅ channel
  rw [sortStrings, (perm_insertionSort _ _).mem_iff, ← AList.mem_keys,
    ← AList.lookup_isSome] at stored
  rw [same]
  cases found : definition.channelKeys.lookup channel with
  | none =>
    rw [found] at stored
    exact stored.2 (by decide)
  | some =>
    rw [found] at stored
    exact stored.1 rfl

theorem updateAutojoin_spec
    (list : (editChannelList isup.fold definition.channels channels add).1 = edited.channels)
    (lookups : ∀ channel, (editChannelKeys isup.fold definition.channelKeys edited.channels
      channels keys add).1.lookup channel = edited.channelKeys.lookup channel)
    (kept : Sound isup edited) :
    Alike (updateAutojoin isup.fold true channels keys add definition) edited := by
  rw [updateAutojoin, sound.validates]
  dsimp only
  rw [list]
  have written : Alike ⟨edited.channels, (editChannelKeys isup.fold definition.channelKeys
      edited.channels channels keys add).1⟩ edited := ⟨rfl, lookups⟩
  by_cases changed : (!(editChannelList isup.fold definition.channels channels add).2 &&
      !(editChannelKeys isup.fold definition.channelKeys edited.channels channels keys
        add).2) = true
  · rw [if_neg (by decide), if_pos changed]
    rw [Bool.and_eq_true, Bool.not_eq_true', Bool.not_eq_true'] at changed
    refine ⟨?_, fun channel => ?_⟩
    · rw [← list, editChannelList_unchanged changed.1]
    · rw [← lookups, editChannelKeys_unchanged changed.2]
  · rw [if_neg (by decide), if_neg changed, if_pos rfl]
    have read := (kept.of_alike written).reread
    exact ⟨read.1, fun channel => (read.2 channel).trans (lookups channel)⟩

end

/-! ### What a line does to the definition -/

variable {channel : Bytes}

theorem containsAny_of_named (named : Named isup channel) :
    containsAny channel (lit " \r\n\x00") = false := by
  rw [containsAny, any_eq_false]
  intro byte member listed
  have plain := (named.plain member).1
  rw [contains_iff_mem] at listed
  have low : ∀ byte ∈ lit " \r\n\x00", byte ≤ 0x20 := by decide +kernel
  exact absurd plain (UInt8.not_lt.mpr (low byte listed))

theorem storable_of_named (named : Named isup channel) :
    Definition.storable channel = true := by
  simp [Definition.storable, named.ne_nil, containsAny_of_named named, maxPersistedChannelLen,
    named.2.2.1]

theorem persistedNames_of_named {list : Bytes} (add : Bool)
    (named : ∀ channel ∈ splitByte 0x2C list, Named isup channel) :
    persistedNames isup add list = splitByte 0x2C list := by
  refine filter_eq_self.mpr fun channel member => ?_
  have name := named channel member
  simp [name.ne_nil, name.1, name.2.1, containsAny_of_named name, maxPersistedChannelLen,
    name.2.2.1]

def Own (isup : ISupport) (nick : Bytes) (message : IrcMessage) : Prop :=
  nick ≠ [] ∧ (message.source.any fun source => isup.fold source.name = isup.fold nick) = true

variable {nick : Bytes} {message : IrcMessage}

theorem Own.source_all (own : Own isup nick message) :
    ¬ (message.source.all fun source => isup.fold source.name ≠ isup.fold nick) = true := by
  cases held : message.source with
  | none =>
    have named := own.2
    rw [held] at named
    cases named
  | some =>
    have named := own.2
    rw [held] at named
    simpa using named

theorem autojoinChange_own (own : Own isup nick message)
    (moves : message.command = lit "JOIN" ∨ message.command = lit "PART") :
    autojoinChange isup nick message =
      (message.param 0, decide (message.command = lit "JOIN")) := by
  rw [autojoinChange, if_pos moves, if_neg]
  rintro (anonymous | other)
  · exact own.1 anonymous
  · exact own.source_all other

theorem persistedKeys_singleton (usable : Usable (intent.channelKey isup channel)) :
    persistedKeys isup intent [channel] = if intent.channelKey isup channel = [] then ∅
      else (∅ : Dict Bytes Bytes).insert channel (intent.channelKey isup channel) := by
  show (if _ then _ else _) = _
  rcases usable with none | ⟨valid, _⟩
  · rw [none]
    rfl
  · have filled := (validJoinKey_spec valid).1
    have storable : validChannelKey (intent.channelKey isup channel) = true := valid
    rw [if_neg filled, if_pos]
    simp [filled, storable]

def withEntry (isup : ISupport) (channels : List Bytes) (channel : Bytes) : List Bytes :=
  if (channels.map isup.fold).contains (isup.fold channel) then channels else channels ++ [channel]

theorem mem_withEntry :
    entry ∈ withEntry isup channels channel ↔
      entry ∈ channels ∨ entry = channel ∧ isup.fold channel ∉ channels.map isup.fold := by
  rw [withEntry, contains_eq_mem]
  by_cases present : isup.fold channel ∈ channels.map isup.fold
  · rw [if_pos (decide_eq_true present)]
    simp [present]
  · rw [if_neg (by simpa using present), mem_append, mem_singleton]
    simp only [present, not_false_eq_true, and_true]

theorem exists_withEntry (isup : ISupport) (channels : List Bytes) (channel : Bytes) :
    ∃ entry ∈ withEntry isup channels channel, isup.fold entry = isup.fold channel := by
  by_cases present : isup.fold channel ∈ channels.map isup.fold
  · obtain ⟨entry, listed, same⟩ := mem_map.mp present
    exact ⟨entry, mem_withEntry.mpr (.inl listed), same⟩
  · exact ⟨channel, mem_withEntry.mpr (.inr ⟨rfl, present⟩), rfl⟩

theorem withEntry_spec (sound : Sound isup definition)
    (room : definition.channels.length < maxPersistedChannels) :
    (withEntry isup definition.channels channel).length ≤ maxPersistedChannels ∧
      ((withEntry isup definition.channels channel).map isup.fold).Nodup := by
  rw [withEntry]
  split
  · exact ⟨sound.short, sound.distinct⟩
  · next absent =>
    rw [contains_eq_mem, decide_eq_true_eq] at absent
    refine ⟨by rw [length_append]; exact room, ?_⟩
    rw [map_append, map_singleton]
    exact nodup_append.mpr ⟨sound.distinct, nodup_singleton _,
      fun folded listed other single => by
        rw [mem_singleton.mp single]
        rintro rfl
        exact absent listed⟩

/-- What our JOIN of a channel makes of a definition: an entry for its fold, with the key of our
last JOIN if that had one. -/
structure Added (isup : ISupport) (channel key : Bytes) (definition next : Definition) : Prop where
  sound : Sound isup next
  channels : next.channels = withEntry isup definition.channels channel
  keys : ∀ entry ∈ next.channels, isup.fold entry = isup.fold channel →
    ∀ other, next.channelKeys.lookup other =
      if key ≠ [] ∧ other = entry then some key else definition.channelKeys.lookup other

theorem Added.of_alike (added : Added isup channel key definition edited)
    (alike : Alike next edited) : Added isup channel key definition next where
  sound := added.sound.of_alike alike
  channels := alike.1.trans added.channels
  keys := by
    rw [alike.1]
    exact fun entry listed same other =>
      (alike.2 other).trans (added.keys entry listed same other)

section

variable (sound : Sound isup definition)
include sound

theorem lookup_persisted
    (room : definition.channels.length < maxPersistedChannels)
    (usable : Usable (intent.channelKey isup channel))
    (listed : entry ∈ withEntry isup definition.channels channel)
    (same : isup.fold entry = isup.fold channel) (other : Bytes) :
    (editChannelKeys isup.fold definition.channelKeys
      (withEntry isup definition.channels channel) [channel]
      (persistedKeys isup intent [channel]) true).1.lookup other =
      if intent.channelKey isup channel ≠ [] ∧ other = entry then
        some (intent.channelKey isup channel)
      else definition.channelKeys.lookup other := by
  rw [persistedKeys_singleton usable]
  by_cases none : intent.channelKey isup channel = []
  · rw [if_pos none, if_neg fun both => both.1 none]
    rfl
  · rw [if_neg none, lookup_editChannelKeys_add (withEntry_spec sound room).2 none listed same]
    simp only [none, ne_eq, not_false_eq_true, true_and]

theorem added_edit
    (room : definition.channels.length < maxPersistedChannels)
    (named : Named isup channel)
    (usable : Usable (intent.channelKey isup channel)) :
    Added isup channel (intent.channelKey isup channel) definition
      ⟨withEntry isup definition.channels channel, (editChannelKeys isup.fold definition.channelKeys
          (withEntry isup definition.channels channel) [channel]
          (persistedKeys isup intent [channel]) true).1⟩ where
  sound :=
    { short := (withEntry_spec sound room).1
      distinct := (withEntry_spec sound room).2
      names entry listed := by
        rcases mem_withEntry.mp listed with old | ⟨rfl, _⟩
        · exact sound.names entry old
        · exact ⟨storable_of_named named, named.2.1⟩
      keyed other key found := by
        obtain ⟨entry, listed, same⟩ := exists_withEntry isup definition.channels channel
        rw [lookup_persisted sound room usable listed same] at found
        split at found
        · next stored =>
          cases found
          obtain ⟨valid, utf8⟩ := usable.resolve_left stored.1
          exact ⟨stored.2 ▸ listed, valid, utf8⟩
        · obtain ⟨old, valid⟩ := sound.keyed other key found
          exact ⟨mem_withEntry.mpr (.inl old), valid⟩ }
  channels := rfl
  keys entry listed same other := lookup_persisted sound room usable listed same other

theorem persistAutojoin_join
    (room : definition.channels.length < maxPersistedChannels) (own : Own isup nick message)
    (joins : message.command = lit "JOIN") (named : Named isup (message.param 0))
    (usable : Usable (intent.channelKey isup (message.param 0))) :
    Added isup (message.param 0) (intent.channelKey isup (message.param 0)) definition
      (persistAutojoin isup nick true true message intent definition) := by
  have added := added_edit sound room named usable
  have single : splitByte 0x2C (message.param 0) = [message.param 0] :=
    splitByte_of_notMem fun comma => (named.plain comma).2 rfl
  have names : persistedNames isup true (message.param 0) = [message.param 0] :=
    (persistedNames_of_named true (by rw [single]; simpa using named)).trans single
  rw [persistAutojoin, autojoinChange_own own (.inl joins)]
  simp only [joins, decide_true, named.ne_nil, names, if_false, Bool.not_true, Bool.false_eq_true,
    cons_ne_nil, if_true]
  refine added.of_alike (updateAutojoin_spec sound ?_ (fun _ => rfl) added.sound)
  exact editChannelList_add isup.fold room

end

structure Removed (isup : ISupport) (parted : List Bytes) (definition next : Definition) :
    Prop where
  sound : Sound isup next
  channels : ∀ entry, entry ∈ next.channels ↔
    entry ∈ definition.channels ∧ isup.fold entry ∉ parted.map isup.fold
  keys : ∀ entry key, next.channelKeys.lookup entry = some key ↔
    definition.channelKeys.lookup entry = some key ∧ isup.fold entry ∉ parted.map isup.fold

theorem Removed.of_alike {parted : List Bytes} (removed : Removed isup parted definition edited)
    (alike : Alike next edited) : Removed isup parted definition next where
  sound := removed.sound.of_alike alike
  channels entry := by rw [alike.1, removed.channels]
  keys entry key := by rw [alike.2, removed.keys]

theorem removed_edit (sound : Sound isup definition) (parted : List Bytes) :
    Removed isup parted definition
      ⟨definition.channels.filter fun channel => !(parted.map isup.fold).contains
          (isup.fold channel),
        definition.channelKeys.keep fun channel _ => !(parted.map isup.fold).contains
          (isup.fold channel)⟩ := by
  have channels : ∀ entry, entry ∈ definition.channels.filter (fun channel =>
      !(parted.map isup.fold).contains (isup.fold channel)) ↔
      entry ∈ definition.channels ∧ isup.fold entry ∉ parted.map isup.fold := by
    intro entry
    rw [mem_filter, Bool.not_eq_true', contains_eq_mem, decide_eq_false_iff_not]
  have keys : ∀ entry key, (definition.channelKeys.keep fun channel _ =>
      !(parted.map isup.fold).contains (isup.fold channel)).lookup entry = some key ↔
      definition.channelKeys.lookup entry = some key ∧ isup.fold entry ∉ parted.map isup.fold := by
    intro entry key
    rw [lookup_keep, Option.filter_eq_some_iff, Bool.not_eq_true', contains_eq_mem,
      decide_eq_false_iff_not]
  refine ⟨?_, channels, keys⟩
  refine ⟨(length_filter_le _ _).trans sound.short, fun entry listed => ?_, ?_, ?_⟩
  · exact sound.names entry ((channels entry).mp listed).1
  · exact sound.distinct.sublist (filter_sublist.map _)
  · intro entry key found
    obtain ⟨old, stays⟩ := (keys entry key).mp found
    obtain ⟨listed, valid⟩ := sound.keyed entry key old
    exact ⟨(channels entry).mpr ⟨listed, stays⟩, valid⟩

theorem persistAutojoin_part (sound : Sound isup definition) (own : Own isup nick message)
    (parts : message.command = lit "PART")
    (named : ∀ channel ∈ splitByte 0x2C (message.param 0), Named isup channel) :
    Removed isup (splitByte 0x2C (message.param 0)) definition
      (persistAutojoin isup nick true true message intent definition) := by
  have removed := removed_edit sound (splitByte 0x2C (message.param 0))
  have names := persistedNames_of_named false named
  have filled : message.param 0 ≠ [] := fun none => by
    rw [none] at named
    exact (named [] (mem_singleton.mpr rfl)).ne_nil rfl
  have leaves : decide (message.command = lit "JOIN") = false := by
    rw [parts]
    decide
  rw [persistAutojoin, autojoinChange_own own (.inr parts), leaves]
  simp only [filled, names, if_false, Bool.not_true, Bool.false_eq_true, splitByte_ne_nil]
  refine removed.of_alike (updateAutojoin_spec sound ?_ (fun _ => rfl) removed.sound)
  refine filter_congr fun channel _ => ?_
  rw [Bool.not_inj_iff, Bool.eq_iff_iff, any_firstSpellings]
  simp

end Ircthing.Hub
