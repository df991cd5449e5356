/-
This file shows what the rejoin set of a connection and the channel list of the stored definition
have in common.
-/

import Mathlib.Data.Finset.Dedup
import Ircthing.Hub.Autojoin
import Ircthing.Library.Machine

namespace Ircthing.Hub

open Library Irc Option JoinIntent Machine Dict

variable {isup : ISupport} {definition : Definition} {channel nick list : Bytes}
  {message : IrcMessage}

/-! ### A connection and its definition -/

namespace Autojoin

variable {entry stored other key : Bytes}

structure State where
  intent : JoinIntent := {}
  definition : Definition := {}
deriving DecidableEq

inductive Action
  | sent (message : IrcMessage)
  | line (visit : Iteration Bytes) (message : IrcMessage)

variable (isup)

def step (nick : Bytes) (state : State) : Action → Option State
  | .sent message => some { state with intent := state.intent.noteJoinKeys isup message }
  | .line visit message =>
    match state.intent.trackJoinIntent isup nick visit message with
    | .error _ => none
    | .ok intent =>
      some
        { intent := intent
          definition := persistAutojoin isup nick true true message intent state.definition }

variable (state : State)

def State.restart : JoinIntent :=
  .seed state.definition.channels state.definition.channelKeys

def folded (intent : JoinIntent) : Finset Bytes :=
  (intent.joined.keys.map isup.fold).toFinset

def SameChannels : Prop :=
  folded isup state.intent = folded isup state.restart

def Paired (related : Bytes → Bytes → Prop) (state : State) : Prop :=
  ∀ channel key entry stored, state.intent.joined.lookup channel = some key →
    state.restart.joined.lookup entry = some stored → isup.fold channel = isup.fold entry →
      related key stored

def SameKeys : Prop :=
  Paired isup (fun key stored => key = stored) state

def KeysKept : Prop :=
  Paired isup (fun key stored => key = stored ∨ key = []) state

def Orderly (nick : Bytes) (state : State) : Action → Prop
  | .sent message => ∀ key ∈ splitByte 0x2C (message.param 1), validString key = true
  | .line _ message =>
    Own isup nick message ∧
      (message.command = lit "JOIN" ∧ JoinIntent.Named isup (message.param 0) ∨
        message.command = lit "PART" ∧
          ∀ channel ∈ splitByte 0x2C (message.param 0), JoinIntent.Named isup channel) ∧
      state.intent.joined.size < maxJoinedChannels ∧
      state.definition.channels.length < maxPersistedChannels

/-- A JOIN of a channel that is stored with a key comes back, and ours was sent without one. -/
def DropsKey : Action → Prop
  | .sent _ => False
  | .line _ message =>
    message.command = lit "JOIN" ∧
      state.intent.joinKeys.lookup (isup.fold (message.param 0)) = some [] ∧
      (state.definition.channels.any fun entry => isup.fold entry = isup.fold (message.param 0) &&
        (state.definition.channelKeys.lookup entry).isSome) = true

/-- The start: both lists agree, with one entry for each folded name and no key without an entry,
and every key noted can be stored. -/
structure Agreed : Prop where
  sound : Sound isup state.definition
  noted : JoinIntent.Noted state.intent.joinKeys
  channels : SameChannels isup state
  keys : SameKeys isup state

structure Followed : Prop where
  sound : Sound isup state.definition
  noted : JoinIntent.Noted state.intent.joinKeys
  channels : SameChannels isup state
  keys : KeysKept isup state

variable {state : State} {isup}

theorem mem_folded {intent : JoinIntent} {name : Bytes} :
    name ∈ folded isup intent ↔
      ∃ channel key, intent.joined.lookup channel = some key ∧ isup.fold channel = name := by
  rw [folded, List.mem_toFinset, List.mem_map]
  constructor
  · rintro ⟨channel, listed, same⟩
    rw [← AList.mem_keys, ← AList.lookup_isSome] at listed
    obtain ⟨key, found⟩ := isSome_iff_exists.mp listed
    exact ⟨channel, key, found, same⟩
  · rintro ⟨channel, key, found, same⟩
    refine ⟨channel, ?_, same⟩
    rw [← AList.mem_keys, ← AList.lookup_isSome, found]
    rfl

theorem lookup_restart :
    state.restart.joined.lookup entry = some stored ↔ entry ∈ state.definition.channels ∧
        (state.definition.channelKeys.lookup entry).getD [] = stored := by
  obtain ⟨inside, outside⟩ :=
    lookup_seed state.definition.channels state.definition.channelKeys entry
  by_cases listed : entry ∈ state.definition.channels
  · rw [State.restart, inside listed, some_inj]
    exact ⟨fun same => ⟨listed, same⟩, And.right⟩
  · rw [State.restart, outside listed]
    exact ⟨nofun, fun both => (listed both.1).elim⟩

theorem sameChannels_iff : SameChannels isup state ↔
    (∀ channel key, state.intent.joined.lookup channel = some key →
      ∃ entry ∈ state.definition.channels, isup.fold entry = isup.fold channel) ∧
    ∀ entry ∈ state.definition.channels, ∃ channel key,
      state.intent.joined.lookup channel = some key ∧ isup.fold channel = isup.fold entry := by
  have stored : ∀ name, name ∈ folded isup state.restart ↔
      ∃ entry ∈ state.definition.channels, isup.fold entry = name := by
    intro name
    rw [mem_folded]
    constructor
    · rintro ⟨entry, key, found, same⟩
      exact ⟨entry, (lookup_restart.mp found).1, same⟩
    · rintro ⟨entry, listed, same⟩
      exact ⟨entry, _, lookup_restart.mpr ⟨listed, rfl⟩, same⟩
  rw [SameChannels, Finset.ext_iff]
  constructor
  · intro same
    refine ⟨fun channel key found => ?_, fun entry listed => ?_⟩
    · exact (stored _).mp ((same _).mp (mem_folded.mpr ⟨channel, key, found, rfl⟩))
    · exact mem_folded.mp ((same _).mpr ((stored _).mpr ⟨entry, listed, rfl⟩))
  · rintro ⟨forth, back⟩ name
    rw [stored, mem_folded]
    constructor
    · rintro ⟨channel, key, found, rfl⟩
      exact forth channel key found
    · rintro ⟨entry, listed, rfl⟩
      exact back entry listed

/-! ### What one line does -/

theorem usable_stored (sound : Sound isup definition) {entry : Bytes} :
    JoinIntent.Usable ((definition.channelKeys.lookup entry).getD []) := by
  cases found : definition.channelKeys.lookup entry with
  | none => exact .inl rfl
  | some key =>
    obtain ⟨_, valid, utf8⟩ := sound.keyed entry key found
    exact .inr ⟨valid, utf8⟩

theorem Followed.usable_remembered (followed : Followed isup state) (visit : Iteration Bytes)
    (channel : Bytes) : JoinIntent.Usable (state.intent.rememberedKey isup visit channel) := by
  rcases rememberedKey_spec isup visit channel state.intent with
    noted | ⟨_, ⟨other, same, found⟩ | ⟨none, _⟩⟩
  · exact followed.noted _ _ noted
  · obtain ⟨entry, listed, spelled⟩ := (sameChannels_iff.mp followed.channels).1 other _ found
    rcases followed.keys other _ entry _ found (lookup_restart.mpr ⟨listed, rfl⟩) spelled.symm with
      kept | none
    · rw [kept]
      exact usable_stored followed.sound
    · exact .inl none
  · exact .inl none

theorem Followed.usable_channelKey (followed : Followed isup state) :
    JoinIntent.Usable (state.intent.channelKey isup channel) := by
  rw [channelKey]
  cases noted : state.intent.joinKeys.lookup (isup.fold channel) with
  | none => exact .inl rfl
  | some => exact followed.noted _ _ noted

variable {next : State} {visit : Iteration Bytes}

structure Joined (isup : ISupport) (visit : Iteration Bytes) (channel : Bytes)
    (state next : State) : Prop where
  intent : next.intent =
    state.intent.addChannel isup channel (state.intent.rememberedKey isup visit channel)
  added : Added isup channel (state.intent.channelKey isup channel) state.definition next.definition

theorem Followed.joined (followed : Followed isup state) (own : Own isup nick message)
    (joins : message.command = lit "JOIN") (named : JoinIntent.Named isup (message.param 0))
    (room : state.intent.joined.size < maxJoinedChannels)
    (space : state.definition.channels.length < maxPersistedChannels)
    (taken : step isup nick state (.line visit message) = some next) :
    Joined isup visit (message.param 0) state next := by
  have remembered := rememberJoinIntent_eq named
    (followed.usable_remembered visit (message.param 0)) room
  have tracked : state.intent.trackJoinIntent isup nick visit message =
      .ok (state.intent.addChannel isup (message.param 0)
        (state.intent.rememberedKey isup visit (message.param 0))) := by
    rw [trackJoinIntent, if_neg own.source_all, if_pos joins, remembered]
  rw [step, tracked] at taken
  cases taken
  exact ⟨rfl, persistAutojoin_join followed.sound space own joins named
    followed.usable_channelKey⟩

structure Parted (isup : ISupport) (list : Bytes) (state next : State) : Prop where
  intent : next.intent = state.intent.forgetJoinIntent isup list
  removed : Removed isup (splitByte 0x2C list) state.definition next.definition

theorem parted_of_step (sound : Sound isup state.definition) (own : Own isup nick message)
    (parts : message.command = lit "PART")
    (named : ∀ channel ∈ splitByte 0x2C (message.param 0), JoinIntent.Named isup channel)
    (taken : step isup nick state (.line visit message) = some next) :
    Parted isup (message.param 0) state next := by
  have other : message.command ≠ lit "JOIN" := by
    rw [parts]
    decide
  have tracked : state.intent.trackJoinIntent isup nick visit message =
      .ok (state.intent.forgetJoinIntent isup (message.param 0)) := by
    rw [trackJoinIntent, if_neg own.source_all, if_neg other, if_pos parts]
  rw [step, tracked] at taken
  cases taken
  exact ⟨rfl, persistAutojoin_part sound own parts named⟩

section

variable (joined : Joined isup visit channel state next)
include joined

theorem Joined.sameChannels (same : SameChannels isup state) : SameChannels isup next := by
  obtain ⟨forth, back⟩ := sameChannels_iff.mp same
  refine sameChannels_iff.mpr ⟨fun other key found => ?_, fun entry listed => ?_⟩
  · rw [joined.added.channels]
    have held : (next.intent.joined.lookup other).isSome = true := by
      rw [found]
      rfl
    rw [joined.intent, isSome_addChannel] at held
    rcases held with rfl | old
    · exact exists_withEntry isup _ other
    · obtain ⟨before, held⟩ := isSome_iff_exists.mp old
      obtain ⟨entry, listed, spelled⟩ := forth other before held
      exact ⟨entry, mem_withEntry.mpr (.inl listed), spelled⟩
  · have holds : ∀ other, (other = channel ∨ (state.intent.joined.lookup other).isSome = true) →
        ∃ key, next.intent.joined.lookup other = some key := by
      intro other held
      rw [joined.intent]
      exact isSome_iff_exists.mp ((isSome_addChannel other).mpr held)
    rw [joined.added.channels] at listed
    rcases mem_withEntry.mp listed with old | ⟨rfl, _⟩
    · obtain ⟨other, key, found, spelled⟩ := back entry old
      obtain ⟨after, held⟩ := holds other (.inr (by rw [found]; rfl))
      exact ⟨other, after, held, spelled⟩
    · obtain ⟨after, held⟩ := holds entry (.inl rfl)
      exact ⟨entry, after, held, rfl⟩

theorem Joined.key_spec (held : next.intent.joined.lookup other = some key)
    (spelled : isup.fold other = isup.fold channel) :
    state.intent.joinKeys.lookup (isup.fold channel) = some key ∨
      state.intent.joinKeys.lookup (isup.fold channel) = none ∧
        ((∃ earlier, isup.fold earlier = isup.fold channel ∧
            state.intent.joined.lookup earlier = some key) ∨
          key = [] ∧ ∀ earlier before, isup.fold earlier = isup.fold channel →
            state.intent.joined.lookup earlier = some before → before = []) := by
  have spec := rememberedKey_spec isup visit channel state.intent
  rw [joined.intent, lookup_addChannel] at held
  by_cases same : other = channel
  · rw [if_pos same] at held
    rwa [some.inj held] at spec
  · rw [if_neg same] at held
    split at held
    · next explicit =>
      obtain ⟨_, _, rfl⟩ := map_eq_some_iff.mp held
      exact spec
    · next implicit =>
      refine .inr ⟨?_, .inl ⟨other, spelled, held⟩⟩
      exact not_isSome_iff_eq_none.mp fun noted => implicit ⟨noted, spelled⟩

theorem Joined.stored_spec (restarts : next.restart.joined.lookup entry = some stored)
    (spelled : isup.fold entry = isup.fold channel) :
    stored = if state.intent.channelKey isup channel ≠ [] then state.intent.channelKey isup channel
      else (state.definition.channelKeys.lookup entry).getD [] := by
  obtain ⟨listed, rfl⟩ := lookup_restart.mp restarts
  rw [joined.added.keys entry listed spelled entry]
  by_cases filled : state.intent.channelKey isup channel ≠ []
  · rw [if_pos ⟨filled, rfl⟩, if_pos filled, getD_some]
  · rw [if_neg fun both => filled both.1, if_neg filled]

theorem Joined.restart_before
    (sound : Sound isup state.definition) (listed : entry ∈ next.definition.channels) :
    state.restart.joined.lookup entry = some ((state.definition.channelKeys.lookup entry).getD []) ∨
      isup.fold channel ∉ state.definition.channels.map isup.fold ∧
        (state.definition.channelKeys.lookup entry).getD [] = [] := by
  rw [joined.added.channels, mem_withEntry] at listed
  rcases listed with old | ⟨rfl, absent⟩
  · exact .inl (lookup_restart.mpr ⟨old, rfl⟩)
  · refine .inr ⟨absent, ?_⟩
    cases found : state.definition.channelKeys.lookup entry with
    | none => rfl
    | some key =>
      exact absurd (List.mem_map_of_mem (sound.keyed entry key found).1) absent

theorem Joined.keys (followed : Followed isup state)
    (held : next.intent.joined.lookup other = some key)
    (restarts : next.restart.joined.lookup entry = some stored)
    (same : isup.fold other = isup.fold entry) (spelled : isup.fold entry = isup.fold channel) :
    (∃ earlier, state.intent.joined.lookup earlier = some key ∧
        state.restart.joined.lookup entry = some stored ∧
        isup.fold earlier = isup.fold entry) ∨
      key = stored ∨
      key = [] ∧ state.intent.joinKeys.lookup (isup.fold channel) = some [] ∧
        (state.definition.channelKeys.lookup entry).isSome = true := by
  have value := joined.stored_spec restarts spelled
  obtain ⟨forth, back⟩ := sameChannels_iff.mp followed.channels
  have before := joined.restart_before followed.sound (lookup_restart.mp restarts).1
  rw [channelKey] at value
  rcases joined.key_spec held (same.trans spelled) with noted | ⟨silent, source⟩
  · rw [noted, getD_some] at value
    by_cases filled : key ≠ []
    · rw [if_pos filled] at value
      exact .inr (.inl value.symm)
    · rw [if_neg filled] at value
      obtain rfl := not_not.mp filled
      cases old : state.definition.channelKeys.lookup entry with
      | none =>
        rw [old] at value
        exact .inr (.inl value.symm)
      | some => exact .inr (.inr ⟨rfl, noted, rfl⟩)
  · rw [silent, getD_none, if_neg (by simp)] at value
    rw [← value] at before
    rcases source with ⟨earlier, fold, found⟩ | ⟨rfl, none⟩
    · refine .inl ⟨earlier, found, before.resolve_right fun new => new.1 ?_,
        fold.trans spelled.symm⟩
      obtain ⟨first, listed, alike⟩ := forth earlier key found
      rw [← fold, ← alike]
      exact List.mem_map_of_mem listed
    · rcases before with old | ⟨_, new⟩
      · obtain ⟨earlier, first, found, alike⟩ := back entry (lookup_restart.mp old).1
        obtain rfl := none earlier first (alike.trans spelled) found
        exact .inl ⟨earlier, found, old, alike⟩
      · exact .inr (.inl new.symm)

theorem Joined.keys_other (held : next.intent.joined.lookup other = some key)
    (restarts : next.restart.joined.lookup entry = some stored)
    (same : isup.fold other = isup.fold entry) (apart : isup.fold entry ≠ isup.fold channel) :
    state.intent.joined.lookup other = some key ∧
      state.restart.joined.lookup entry = some stored := by
  obtain ⟨listed, value⟩ := lookup_restart.mp restarts
  constructor
  · rw [joined.intent, lookup_addChannel, if_neg, if_neg] at held
    · exact held
    · exact fun both => apart (same.symm.trans both.2)
    · rintro rfl
      exact apart same.symm
  · obtain ⟨first, kept, spelled⟩ := exists_withEntry isup state.definition.channels channel
    rw [← joined.added.channels] at kept
    rw [joined.added.keys first kept spelled, if_neg] at value
    · rw [joined.added.channels, mem_withEntry] at listed
      refine lookup_restart.mpr ⟨listed.resolve_right ?_, value⟩
      rintro ⟨rfl, _⟩
      exact apart rfl
    · rintro ⟨_, rfl⟩
      exact apart spelled

end

theorem Parted.sameChannels (parted : Parted isup list state next)
    (same : SameChannels isup state) : SameChannels isup next := by
  obtain ⟨forth, back⟩ := sameChannels_iff.mp same
  refine sameChannels_iff.mpr ⟨fun channel key found => ?_, fun entry listed => ?_⟩
  · rw [parted.intent, lookup_forget_eq_some] at found
    obtain ⟨entry, listed, spelled⟩ := forth channel key found.1
    exact ⟨entry, (parted.removed.channels entry).mpr ⟨listed, spelled ▸ found.2⟩, spelled⟩
  · obtain ⟨old, stays⟩ := (parted.removed.channels entry).mp listed
    obtain ⟨channel, key, found, spelled⟩ := back entry old
    refine ⟨channel, key, ?_, spelled⟩
    rw [parted.intent, lookup_forget_eq_some]
    exact ⟨found, spelled ▸ stays⟩

theorem Parted.keys (parted : Parted isup list state next)
    (held : next.intent.joined.lookup other = some key)
    (restarts : next.restart.joined.lookup entry = some stored) :
    state.intent.joined.lookup other = some key ∧
      state.restart.joined.lookup entry = some stored := by
  rw [parted.intent, lookup_forget_eq_some] at held
  obtain ⟨listed, value⟩ := lookup_restart.mp restarts
  obtain ⟨old, stays⟩ := (parted.removed.channels entry).mp listed
  have same : next.definition.channelKeys.lookup entry =
      state.definition.channelKeys.lookup entry := by
    refine ext fun key => ?_
    rw [parted.removed.keys]
    exact ⟨And.left, fun found => ⟨found, stays⟩⟩
  rw [same] at value
  exact ⟨held.1, lookup_restart.mpr ⟨old, value⟩⟩

/-! ### Runs -/

/-- What a step that meets the conditions does. -/
inductive StepChange (isup : ISupport) (state next : State) : Action → Prop
  | noted (message : IrcMessage) (intent : next.intent.joined = state.intent.joined)
      (definition : next.definition = state.definition)
      (keys : JoinIntent.Noted next.intent.joinKeys) : StepChange isup state next (.sent message)
  | joined (visit : Iteration Bytes) (message : IrcMessage)
      (joins : message.command = lit "JOIN")
      (joined : Joined isup visit (message.param 0) state next) :
      StepChange isup state next (.line visit message)
  | parted (visit : Iteration Bytes) (message : IrcMessage)
      (parted : Parted isup (message.param 0) state next) :
      StepChange isup state next (.line visit message)

variable {action : Action}

theorem Followed.stepChange (followed : Followed isup state) (orderly : Orderly isup nick state action)
    (taken : step isup nick state action = some next) : StepChange isup state next action := by
  cases action with
  | sent message =>
    cases taken
    obtain ⟨joined, noted⟩ := noteJoinKeys_spec isup message followed.noted orderly
    exact .noted message joined rfl noted
  | line visit message =>
    obtain ⟨own, ⟨joins, named⟩ | ⟨parts, named⟩, room, space⟩ := orderly
    · exact .joined visit message joins (followed.joined own joins named room space taken)
    · exact .parted visit message (parted_of_step followed.sound own parts named taken)

theorem StepChange.paired (effect : StepChange isup state next action) (followed : Followed isup state)
    {related : Bytes → Bytes → Prop} (same : ∀ key, related key key)
    (dropped : DropsKey isup state action → ∀ stored, related [] stored)
    (paired : Paired isup related state) : Paired isup related next := by
  intro channel key entry stored held restarts spelled
  cases effect with
  | noted _ intent definition =>
    rw [intent] at held
    rw [State.restart, definition] at restarts
    exact paired channel key entry stored held restarts spelled
  | parted _ _ parted =>
    obtain ⟨found, before⟩ := parted.keys held restarts
    exact paired channel key entry stored found before spelled
  | joined _ message joins joined =>
    by_cases moved : isup.fold entry = isup.fold (message.param 0)
    · rcases joined.keys followed held restarts spelled moved with
        ⟨earlier, found, before, fold⟩ | rfl | ⟨rfl, silent, keyed⟩
      · exact paired earlier key entry stored found before fold
      · exact same key
      · obtain ⟨kept, found⟩ := isSome_iff_exists.mp keyed
        refine dropped ⟨joins, silent, List.any_eq_true.mpr ⟨entry, ?_, ?_⟩⟩ stored
        · exact (followed.sound.keyed entry kept found).1
        · simp only [moved, keyed, decide_true, Bool.and_self]
    · obtain ⟨found, before⟩ := joined.keys_other held restarts spelled moved
      exact paired channel key entry stored found before spelled

theorem Followed.step (followed : Followed isup state) (orderly : Orderly isup nick state action)
    (taken : step isup nick state action = some next) : Followed isup next := by
  have effect := followed.stepChange orderly taken
  have keys := effect.paired followed (fun _ => .inl rfl) (fun _ _ => .inr rfl) followed.keys
  cases effect with
  | noted _ intent definition noted =>
    refine ⟨definition ▸ followed.sound, noted, ?_, keys⟩
    rw [SameChannels, folded, intent, State.restart, definition]
    exact followed.channels
  | joined _ _ _ joined =>
    refine ⟨joined.added.sound, ?_, joined.sameChannels followed.channels, keys⟩
    rw [joined.intent]
    exact followed.noted
  | parted _ _ parted =>
    refine ⟨parted.removed.sound, ?_, parted.sameChannels followed.channels, keys⟩
    rw [parted.intent]
    exact noted_forget followed.noted _

theorem Agreed.followed (agreed : Agreed isup state) : Followed isup state :=
  ⟨agreed.sound, agreed.noted, agreed.channels, fun channel key entry stored held restarts same =>
      .inl (agreed.keys channel key entry stored held restarts same)⟩

theorem Agreed.step (agreed : Agreed isup state) (orderly : Orderly isup nick state action)
    (keeps : ¬ DropsKey isup state action) (taken : step isup nick state action = some next) :
    Agreed isup next := by
  have followed := agreed.followed.step orderly taken
  have effect := agreed.followed.stepChange orderly taken
  refine ⟨followed.sound, followed.noted, followed.channels, ?_⟩
  exact effect.paired agreed.followed (fun _ => rfl) (fun drops => absurd drops keeps) agreed.keys

theorem agreed_seed (sound : Sound isup definition) :
    Agreed isup ⟨.seed definition.channels definition.channelKeys, definition⟩ where
  sound := sound
  noted _ _ found := by cases found
  channels := rfl
  keys channel key entry stored held restarts same := by
    have seeded : State.restart ⟨.seed definition.channels definition.channelKeys, definition⟩ =
      .seed definition.channels definition.channelKeys := rfl
    rw [← seeded] at held
    obtain ⟨first, rfl⟩ := lookup_restart.mp held
    obtain ⟨second, rfl⟩ := lookup_restart.mp restarts
    rw [List.inj_on_of_nodup_map sound.distinct first second same]

/-- In every orderly run from agreement a reconnect and a restart join the same channels, with the
same keys where the reconnect uses one, and everywhere if no JOIN comes back that was sent without
the stored key. -/
theorem rejoins_agree_with_autojoin (isup : ISupport) (nick : Bytes) {start : State}
    (agreed : Agreed isup start) :
    (∀ state, Machine.Reaches (step isup nick) (Orderly isup nick) start state →
      SameChannels isup state ∧ KeysKept isup state) ∧
    ∀ state, Machine.Reaches (step isup nick)
        (fun state action => Orderly isup nick state action ∧ ¬ DropsKey isup state action)
        start state →
      SameChannels isup state ∧ SameKeys isup state := by
  constructor
  · intro state reached
    have followed := reached.invariant agreed.followed fun _ _ _ followed orderly taken =>
      followed.step orderly taken
    exact ⟨followed.channels, followed.keys⟩
  · intro state reached
    have kept := reached.invariant agreed fun _ _ _ agreed meets taken =>
      agreed.step meets.1 meets.2 taken
    exact ⟨kept.channels, kept.keys⟩

instance (isup : ISupport) (nick : Bytes) (message : IrcMessage) :
    Decidable (Own isup nick message) :=
  inferInstanceAs (Decidable (_ ∧ _))

instance (isup : ISupport) (nick : Bytes) (state : State) (action : Action) :
    Decidable (Orderly isup nick state action) :=
  match action with
  | .sent _ => inferInstanceAs (Decidable (∀ _ ∈ _, _))
  | .line _ _ => inferInstanceAs (Decidable (_ ∧ _))

instance (isup : ISupport) (state : State) (action : Action) :
    Decidable (DropsKey isup state action) :=
  match action with
  | .sent _ => inferInstanceAs (Decidable False)
  | .line _ _ => inferInstanceAs (Decidable (_ ∧ _))

def keyedDefinition : Definition :=
  ⟨[lit "#a"], (∅ : Dict Bytes Bytes).insert (lit "#a") (lit "k")⟩

theorem sound_keyedDefinition : Sound {} keyedDefinition where
  short := by decide
  names := by decide +kernel
  distinct := by decide +kernel
  keyed channel key found := by
    change AList.lookup channel ((∅ : Dict Bytes Bytes).insert (lit "#a") (lit "k")) = _ at found
    rw [lookup_insert_eq] at found
    split at found
    · next same =>
      cases found
      rw [same]
      decide +kernel
    · cases found

def ownLine (command : String) (channel : String) : Action :=
  .line .plain ⟨[], some { name := lit "me" }, lit command, [lit channel]⟩

/-- A channel that is stored with its key is joined without it. A reconnect then joins it without
the key, and a restart with it. -/
theorem keyless_join_drops_key :
    ∃ start state : State, Agreed {} start ∧
      Machine.Reaches (step {} (lit "me")) (Orderly {} (lit "me")) start state ∧
      state.intent.joined.lookup (lit "#a") = some [] ∧
      state.restart.joined.lookup (lit "#a") = some (lit "k") := by
  have ran : (run (guarded (step {} (lit "me")) (Orderly {} (lit "me")))
      ⟨.seed keyedDefinition.channels keyedDefinition.channelKeys, keyedDefinition⟩
      [.sent (newMsg "JOIN" [lit "#a"]), ownLine "JOIN" "#a"]).map (fun state =>
        (state.intent.joined.lookup (lit "#a"), state.restart.joined.lookup (lit "#a"))) =
      some (some [], some (lit "k")) := by
    decide +kernel
  obtain ⟨state, ran, facts⟩ := map_eq_some_iff.mp ran
  obtain ⟨rejoin, restart⟩ := Prod.mk.inj facts
  exact ⟨_, state, agreed_seed sound_keyedDefinition, reaches_run .refl ran, rejoin, restart⟩

theorem rejoins_agree_with_autojoin_rekeyed :
    ∃ start state : State, Agreed {} start ∧
      state.intent.joined.lookup (lit "#a") = some (lit "z") ∧
      SameChannels {} state ∧ SameKeys {} state := by
  have ran : (run (guarded (step {} (lit "me"))
      (fun state action => Orderly {} (lit "me") state action ∧ ¬ DropsKey {} state action))
      ⟨.seed keyedDefinition.channels keyedDefinition.channelKeys, keyedDefinition⟩
      [.sent (newMsg "JOIN" [lit "#A,#b", lit "z"]), ownLine "JOIN" "#A", ownLine "JOIN" "#b",
        ownLine "PART" "#B"]).map (fun state => state.intent.joined.lookup (lit "#a")) =
      some (some (lit "z")) := by
    decide +kernel
  obtain ⟨state, ran, key⟩ := map_eq_some_iff.mp ran
  have agreed := agreed_seed sound_keyedDefinition
  exact ⟨_, state, agreed, key,
    (rejoins_agree_with_autojoin {} (lit "me") agreed).2 state (reaches_run .refl ran)⟩

end Autojoin

end Ircthing.Hub
