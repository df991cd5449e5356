/-
This file models the lazy NAMES requests of a connection manager and proves when a mark stands for a
request that is still good.
-/

import Ircthing.Irc.JoinIntent
import Ircthing.Library.Machine

namespace Ircthing.Irc.LazyNames

open Library

/-- A call of `EnsureNames`, before its send or, once NAMES was accepted, before its mark. -/
structure Call where
  key : Bytes
  gen : Nat
  sent : Bool := false
deriving DecidableEq

inductive Happening
  | connected
  | joined (key : Bytes)
  | accepted (key : Bytes)

/-- A NAMES for the channel was accepted on the current connection after our last JOIN of it. The
latest happening comes first. -/
def fresh (key : Bytes) : List Happening → Bool
  | [] => false
  | .connected :: _ => false
  | .joined other :: earlier => other ≠ key && fresh key earlier
  | .accepted other :: earlier => other = key || fresh key earlier

/-- `namesReq` and `namesGen`, the rejoin set, the calls in flight, and what has happened. -/
structure State where
  requested : Dict Bytes Unit := ∅
  gen : Nat := 0
  intent : JoinIntent := {}
  calls : Nat → Option Call := fun _ => none
  past : List Happening := []

variable (state : State)

def State.marked (key : Bytes) : Bool := (state.requested.lookup key).isSome

/-- `rememberJoinIntent` gets to its end, where the mark is dropped. -/
def remembers (isup : ISupport) (visit : Dict.Iteration Bytes) (channel : Bytes)
    (intent : JoinIntent) : Bool :=
  channel ≠ [] && isup.isChannel channel &&
    (JoinIntent.usableKey isup channel (intent.rememberedKey isup visit channel)).isSome &&
    ((intent.joined.lookup channel).isSome || intent.joined.size < maxJoinedChannels)

inductive Event
  /-- `EnsureNames` up to its send, with the capability and the registration it finds. -/
  | ensure (thread : Nat) (isup : ISupport) (channel : Bytes) (enabled registered : Bool)
  | send (thread : Nat) (accepted : Bool)
  | mark (thread : Nat)
  /-- Our own JOIN in the read loop. -/
  | join (isup : ISupport) (visit : Dict.Iteration Bytes) (channel : Bytes)
  /-- `resetNames`, for a new connection. -/
  | reset

def State.step : Event → State
  | .ensure thread isup channel enabled registered =>
    if !enabled || !registered || maxChannelNameBytes < channel.length ||
        state.marked (isup.fold channel) || maxJoinedChannels ≤ state.requested.size then state
    else
      { state with
        calls := Function.update state.calls thread (some ⟨isup.fold channel, state.gen, false⟩) }
  | .send thread accepted =>
    match state.calls thread, accepted with
    | some ⟨key, gen, false⟩, true =>
      { state with
        calls := Function.update state.calls thread (some ⟨key, gen, true⟩)
        past := .accepted key :: state.past }
    | some ⟨_, _, false⟩, false =>
      { state with calls := Function.update state.calls thread none }
    | _, _ => state
  | .mark thread =>
    match state.calls thread with
    | some ⟨key, gen, true⟩ =>
      { state with
        calls := Function.update state.calls thread none
        requested := if state.gen = gen then state.requested.insert key () else state.requested }
    | _ => state
  | .join isup visit channel =>
    { state with
      intent := (state.intent.rememberJoinIntent isup visit channel).toOption.getD state.intent
      requested :=
        if remembers isup visit channel state.intent then state.requested.erase (isup.fold channel)
        else state.requested
      past := .joined (isup.fold channel) :: state.past }
  | .reset =>
    { state with requested := ∅, gen := state.gen + 1, past := .connected :: state.past }

/-- Our JOIN drops the mark of its channel, if there is one, and comes while no request for the
channel waits for its mark. -/
def Orderly : Event → Prop
  | .join isup visit channel =>
    (state.marked (isup.fold channel) = true → remembers isup visit channel state.intent = true) ∧
    ∀ thread, state.calls thread ≠ some ⟨isup.fold channel, state.gen, true⟩
  | _ => True

/-- Every mark, and every mark about to be set, stands for a request that is still good. -/
structure Sound : Prop where
  requested : ∀ key, state.marked key = true → fresh key state.past = true
  marking : ∀ {thread key}, state.calls thread = some ⟨key, state.gen, true⟩ →
    fresh key state.past = true
  begun : ∀ {thread call}, state.calls thread = some call → call.gen ≤ state.gen

variable {state : State}

theorem Sound.update (sound : Sound state) {thread : Nat} {next : Option Call}
    (begun : ∀ call, next = some call → call.gen ≤ state.gen)
    (marking : ∀ key, next = some ⟨key, state.gen, true⟩ → fresh key state.past = true) :
    Sound { state with calls := Function.update state.calls thread next } := by
  have moved : ∀ {other call}, Function.update state.calls thread next other = some call →
      next = some call ∨ state.calls other = some call := fun {other call} found => by
    rw [Function.update_apply] at found
    split at found
    · exact .inl found
    · exact .inr found
  exact ⟨sound.requested, fun found => (moved found).elim (marking _) sound.marking,
    fun found => (moved found).elim (begun _) sound.begun⟩

theorem Sound.accepted (sound : Sound state) (key : Bytes) :
    Sound { state with past := .accepted key :: state.past } :=
  ⟨fun other marked => Bool.or_eq_true_iff.mpr (.inr (sound.requested other marked)),
    fun found => Bool.or_eq_true_iff.mpr (.inr (sound.marking found)), sound.begun⟩

theorem Sound.step (sound : Sound state) {event : Event} (orderly : Orderly state event) :
    Sound (state.step event) := by
  cases event with
  | ensure =>
    unfold State.step
    dsimp only
    split
    · exact sound
    · refine sound.update ?_ ?_
      · rintro _ ⟨⟩
        exact le_rfl
      · rintro _ ⟨⟩
  | send _ accepted =>
    unfold State.step
    dsimp only
    split
    · next key gen found =>
      have begun : gen ≤ state.gen := sound.begun found
      refine (sound.accepted key).update ?_ ?_
      · rintro _ ⟨⟩
        exact begun
      · rintro _ ⟨⟩
        exact Bool.or_eq_true_iff.mpr (.inl (decide_eq_true rfl))
    · refine sound.update ?_ ?_ <;> rintro _ ⟨⟩
    · exact sound
  | mark thread =>
    unfold State.step
    dsimp only
    split
    · next key gen found =>
      have ended : Sound { state with calls := Function.update state.calls thread none } :=
        sound.update (by rintro _ ⟨⟩) (by rintro _ ⟨⟩)
      refine ⟨fun other marked => ?_, ended.marking, ended.begun⟩
      dsimp only [State.marked] at marked
      split at marked
      · next same =>
        rw [Dict.lookup_insert_eq] at marked
        split at marked
        · next here => exact sound.marking (here ▸ same ▸ found)
        · exact sound.requested other marked
      · exact sound.requested other marked
    · exact sound
  | join isup _ channel =>
    obtain ⟨remembered, unmarked⟩ := orderly
    have kept : ∀ {key}, isup.fold channel ≠ key → fresh key state.past = true →
        fresh key (.joined (isup.fold channel) :: state.past) = true := fun other before =>
      Bool.and_eq_true_iff.mpr ⟨decide_eq_true other, before⟩
    refine ⟨fun key marked => ?_, fun {thread key} found => ?_, sound.begun⟩
    · dsimp only [State.step, State.marked] at marked ⊢
      split at marked
      · rw [Dict.lookup_erase_eq] at marked
        split at marked
        · cases marked
        · next other => exact kept (Ne.symm other) (sound.requested key marked)
      · next forgotten =>
        exact kept (fun same => forgotten (remembered (same ▸ marked))) (sound.requested key marked)
    · exact kept (fun same => unmarked thread (same ▸ found)) (sound.marking found)
  | reset =>
    refine ⟨fun key marked => absurd marked Bool.false_ne_true, fun found => ?_,
      fun found => (sound.begun found).trans (Nat.le_succ _)⟩
    exact absurd (sound.begun found) (Nat.not_succ_le_self _)

/-- In every interleaving whose steps are orderly, a marked channel has had a NAMES accepted on the
current connection after our last JOIN of it. -/
theorem names_marks_fresh (intent : JoinIntent) (state : State)
    (reached : Machine.Reaches (Machine.always State.step) Orderly { intent } state) :
    ∀ key, state.marked key = true → fresh key state.past = true := by
  have sound : Sound state := by
    refine reached.invariant ⟨fun key marked => ?_, fun found => ?_, fun found => ?_⟩ ?_
    · exact absurd marked Bool.false_ne_true
    · cases found
    · cases found
    · rintro before event _ sound orderly ⟨⟩
      exact sound.step orderly
  exact sound.requested

theorem names_marks_fresh_viewed :
    let state := List.foldl State.step {}
      [.join {} .plain (lit "#a"), .ensure 0 {} (lit "#a") true true, .send 0 true, .mark 0]
    state.marked (lit "#a") = true ∧ fresh (lit "#a") state.past = true := by
  have joined : Machine.Reaches (Machine.always State.step) Orderly {} _ :=
    .tail (.join {} .plain (lit "#a")) .refl
      ⟨fun marked => absurd marked Bool.false_ne_true, fun _ called => by cases called⟩ rfl
  have ensured : Machine.Reaches (Machine.always State.step) Orderly {} _ :=
    .tail (.ensure 0 {} (lit "#a") true true) joined trivial rfl
  have sent : Machine.Reaches (Machine.always State.step) Orderly {} _ :=
    .tail (.send 0 true) ensured trivial rfl
  have marked : Machine.Reaches (Machine.always State.step) Orderly {} _ :=
    .tail (.mark 0) sent trivial rfl
  exact ⟨by decide +kernel, names_marks_fresh {} _ marked _ (by decide +kernel)⟩

/-- Our JOIN comes back between the request and its mark. -/
theorem rejoined_channel_marked :
    let state := List.foldl State.step {}
      [.ensure 0 {} (lit "#a") true true, .send 0 true, .join {} .plain (lit "#a"), .mark 0]
    state.marked (lit "#a") = true ∧ fresh (lit "#a") state.past = false := by
  decide +kernel

end Ircthing.Irc.LazyNames
