/-
This file models how a registered connection follows the capabilities of its server, and says when a
published value is the one last announced.
-/

import Ircthing.Irc.JoinIntent
import Ircthing.Irc.Handshake

namespace Ircthing.Irc

open Library Dict List AList

/-- `caps`, `capVals` and `pendingCapVals` of a manager. -/
structure CapState where
  caps : Dict Bytes Bool := ∅
  capVals : Dict Bytes Bytes := ∅
  pendingCapVals : Dict Bytes Bytes := ∅

namespace CapState

variable (state : CapState) (name : Bytes)

def capEnabled : Bool := (state.caps.lookup name).getD false

def announce (state : CapState) (req : List Bytes) : List Bytes → CapState × List Bytes
  | [] => (state, req)
  | token :: rest =>
    let (name, value, _) := cut token 0x3D
    if !wantedCaps.contains name || state.capEnabled name || req.contains name then
      state.announce req rest
    else
      { state with pendingCapVals :=
          if value ≠ [] then state.pendingCapVals.insert name value
          else state.pendingCapVals }.announce (req ++ [name]) rest

inductive Move
  | announce (tokens : List Bytes)
  | enable (name : Bytes)
  | drop (name : Bytes)
deriving DecidableEq

def perform : Move → CapState
  | .announce tokens => (state.announce [] tokens).1
  | .enable name =>
    if !wantedCaps.contains name then state
    else
      match state.pendingCapVals.lookup name with
      | some value =>
        { caps := state.caps.insert name true
          capVals := state.capVals.insert name value
          pendingCapVals := state.pendingCapVals.erase name }
      | none => { state with caps := state.caps.insert name true }
  | .drop name =>
    { caps := state.caps.erase name
      capVals := state.capVals.erase name
      pendingCapVals := state.pendingCapVals.erase name }

/-- The loop of `applyCapChange`. -/
def changes (enable : Bool) (tokens : List Bytes) : List Move :=
  tokens.map fun token => if enable && !hasPrefix token (lit "-") then .enable token
    else .drop (trimPrefix token (lit "-"))

variable (toUpper : Bytes → Bytes)

/-- The cases of `handleCapNotify`. -/
def moves (m : IrcMessage) : List Move :=
  if m.params.length < 3 then []
  else if toUpper (m.param 1) = lit "NEW" then [.announce (fields m.trailing)]
  else if toUpper (m.param 1) = lit "ACK" then changes true (fields m.trailing)
  else if toUpper (m.param 1) = lit "DEL" then changes false (fields m.trailing)
  else []

variable (lineLen : Nat)

def request (state : CapState) : Move → List IrcMessage
  | .announce tokens =>
    let req := (state.announce [] tokens).2
    let message := newMsg "CAP" [lit "REQ", join (lit " ") (sortStrings req)]
    if req = [] ∨ !checkLineLen message lineLen then [] else [message]
  | _ => []

def handleCapNotify (state : CapState) (m : IrcMessage) : CapState × List IrcMessage :=
  ((moves toUpper m).foldl perform state, (moves toUpper m).flatMap (state.request lineLen))

def feed (state : CapState) (lines : List IrcMessage) : CapState :=
  lines.foldl (fun state m => (state.handleCapNotify toUpper lineLen m).1) state

def given (tokens : List Bytes) : Option Bytes :=
  (tokens.find? fun token => (cut token 0x3D).1 = name).map fun token => (cut token 0x3D).2.1

def said (name value : Bytes) : Move → Bytes
  | .announce tokens => (given name tokens).getD value
  | .enable _ => value
  | .drop other => if other = name then [] else value

def kept (value : Bytes) : Option Bytes := if value ≠ [] then some value else none

/-- In no NEW of a run a wanted capability that is not enabled is named without a value while it has
one stashed. -/
def Renewed (state : CapState) : List Move → Prop
  | [] => True
  | move :: rest =>
    (∀ tokens name, move = .announce tokens → wantedCaps.contains name = true →
      state.capEnabled name = false → given name tokens = some [] →
      state.pendingCapVals.lookup name = none) ∧ (state.perform move).Renewed rest

/-- What `applyCaps` leaves after registration. -/
structure Applied : Prop where
  enabled : ∀ name, (state.capVals.lookup name).isSome = true → state.capEnabled name = true
  none : state.pendingCapVals = ∅

variable {start state : CapState} {name : Bytes} {before later : List Move}

/-! ### One move -/

theorem given_cons (name token : Bytes) (rest : List Bytes) : given name (token :: rest) =
    if (cut token 0x3D).1 = name then some (cut token 0x3D).2.1 else given name rest := by
  unfold given
  rw [find?_cons]
  split
  · next same => rw [if_pos (of_decide_eq_true same), Option.map_some]
  · next other => rw [if_neg (of_decide_eq_false other)]

theorem announce_spec (state : CapState) (req tokens : List Bytes) :
    (state.announce req tokens).1.caps = state.caps ∧
    (state.announce req tokens).1.capVals = state.capVals ∧
    ∀ name, wantedCaps.contains name = true → state.capEnabled name = false →
      (state.announce req tokens).1.pendingCapVals.lookup name =
        if req.contains name then state.pendingCapVals.lookup name
        else ((given name tokens).bind kept).or (state.pendingCapVals.lookup name) := by
  induction tokens generalizing state req with
  | nil =>
    refine ⟨rfl, rfl, fun name _ _ => ?_⟩
    split <;> rfl
  | cons token rest ih =>
    rw [announce]
    generalize gives : cut token 0x3D = parts
    obtain ⟨cap, value, found⟩ := parts
    dsimp only
    split
    · next skipped =>
      obtain ⟨caps, vals, stashed⟩ := ih state req
      refine ⟨caps, vals, fun name wanted disabled => ?_⟩
      rw [stashed name wanted disabled, given_cons, gives]
      split
      · rfl
      · next unseen =>
        rw [if_neg]
        rintro rfl
        rw [wanted, disabled, Bool.eq_false_iff.mpr unseen] at skipped
        cases skipped
    · next taken =>
      simp only [Bool.or_eq_true, not_or, Bool.not_eq_true] at taken
      obtain ⟨caps, vals, stashed⟩ := ih _ (req ++ [cap])
      refine ⟨caps, vals, fun name wanted disabled => ?_⟩
      rw [stashed name wanted disabled, given_cons, gives, contains_append]
      by_cases same : cap = name
      · subst same
        rw [taken.2, if_pos rfl]
        by_cases empty : value = [] <;> simp [empty, kept]
      · have other : [cap].contains name = false := by simpa using Ne.symm same
        rw [other, Bool.or_false, if_neg same]
        dsimp only
        split <;> split <;> simp only [lookup_insert_eq, if_neg (Ne.symm same)]

structure Tracks (start state : CapState) (before : List Move) (name : Bytes) : Prop where
  wanted : state.capEnabled name = true →
    wantedCaps.contains name = true ∨ start.capEnabled name = true
  enabled : (state.capVals.lookup name).isSome = true → state.capEnabled name = true
  stashed : wantedCaps.contains name = true → state.capEnabled name = false →
    state.pendingCapVals.lookup name = kept (before.foldl (said name) [])

theorem Tracks.other (tracks : Tracks start state before name) {cap : Bytes} {move : Move}
    (names : move = .enable cap ∨ move = .drop cap) (other : name ≠ cap) :
    Tracks start (state.perform move) (before ++ [move]) name := by
  have same : (state.perform move).capEnabled name = state.capEnabled name ∧
      (state.perform move).capVals.lookup name = state.capVals.lookup name ∧
      (state.perform move).pendingCapVals.lookup name = state.pendingCapVals.lookup name ∧
      (before ++ [move]).foldl (said name) [] = before.foldl (said name) [] := by
    rw [foldl_append]
    obtain rfl | rfl := names
    · rw [CapState.perform, capEnabled, capEnabled]
      split
      · exact ⟨rfl, rfl, rfl, rfl⟩
      · split <;> simp only [lookup_insert_eq, lookup_erase_eq, if_neg other, true_and] <;> rfl
    · simp only [CapState.perform, capEnabled, lookup_erase_eq, if_neg other, true_and]
      exact if_neg (Ne.symm other)
  obtain ⟨caps, vals, pending, saying⟩ := same
  exact ⟨caps ▸ tracks.wanted, caps ▸ vals ▸ tracks.enabled,
    caps ▸ pending ▸ saying ▸ tracks.stashed⟩

theorem Tracks.perform (tracks : Tracks start state before name) {move : Move}
    (renewed : state.Renewed [move]) :
    Tracks start (state.perform move) (before ++ [move]) name := by
  cases move with
  | announce tokens =>
    obtain ⟨caps, vals, stash⟩ := announce_spec state [] tokens
    have same : (state.announce [] tokens).1.capEnabled name = state.capEnabled name := by
      rw [capEnabled, caps, capEnabled]
    refine ⟨same ▸ tracks.wanted, fun published => same.trans (tracks.enabled (vals ▸ published)),
      fun want off => ?_⟩
    have off := same.symm.trans off
    refine (stash name want off).trans ?_
    rw [foldl_append]
    change ((given name tokens).bind kept).or _ = kept ((given name tokens).getD _)
    cases gave : given name tokens with
    | none => exact tracks.stashed want off
    | some value =>
      by_cases empty : value = []
      · subst empty
        exact renewed.1 tokens name rfl want off gave
      · simp [kept, empty]
  | enable cap =>
    by_cases other : name ≠ cap
    · exact tracks.other (.inl rfl) other
    obtain rfl := not_not.mp other
    rw [CapState.perform]
    split
    · exact ⟨tracks.wanted, tracks.enabled, by rw [foldl_append]; exact tracks.stashed⟩
    next known =>
    have on : ((insert name true state.caps).lookup name).getD false = true := by
      rw [lookup_insert]
      rfl
    split <;> exact ⟨fun _ => .inl (by simpa using known), fun _ => on,
      fun _ off => absurd (off.symm.trans on) Bool.false_ne_true⟩
  | drop cap =>
    by_cases other : name ≠ cap
    · exact tracks.other (.inr rfl) other
    obtain rfl := not_not.mp other
    refine ⟨fun on => ?_, fun published => ?_, fun _ _ => ?_⟩
    · rw [capEnabled, CapState.perform, lookup_erase] at on
      cases on
    · rw [CapState.perform, lookup_erase] at published
      cases published
    · rw [CapState.perform, lookup_erase, foldl_append]
      change none = kept (if name = name then [] else _)
      rw [if_pos rfl]
      rfl

/-! ### Runs -/

theorem Tracks.run (tracks : Tracks start state before name) (renewed : state.Renewed later) :
    Tracks start (later.foldl CapState.perform state) (before ++ later) name := by
  induction later generalizing state before with
  | nil => exact (append_nil before).symm ▸ tracks
  | cons move rest ih =>
    rw [append_cons]
    exact ih (tracks.perform ⟨renewed.1, trivial⟩) renewed.2

theorem Renewed.of_append (renewed : state.Renewed (before ++ later)) : state.Renewed before := by
  induction before generalizing state with
  | nil => trivial
  | cons move rest ih => exact ⟨renewed.1, ih renewed.2⟩

/-- In every run in which no NEW leaves out a stashed value, only wanted capabilities are gained,
what has a value is enabled, and an ACK that enables one publishes the value last given to it. -/
theorem capability_values_announced (toUpper : Bytes → Bytes) (lineLen : Nat) (start : CapState)
    (applied : start.Applied) (lines : List IrcMessage)
    (renewed : start.Renewed (lines.flatMap (moves toUpper))) :
    (∀ name, (start.feed toUpper lineLen lines).capEnabled name = true →
      wantedCaps.contains name = true ∨ start.capEnabled name = true) ∧
    (∀ name, ((start.feed toUpper lineLen lines).capVals.lookup name).isSome = true →
      (start.feed toUpper lineLen lines).capEnabled name = true) ∧
    ∀ before name rest, lines.flatMap (moves toUpper) = before ++ .enable name :: rest →
      wantedCaps.contains name = true → (before.foldl perform start).capEnabled name = false →
      ((before.foldl perform start).perform (.enable name)).capVals.lookup name =
        kept (before.foldl (said name) []) := by
  have initial : ∀ name, Tracks start start [] name := fun name =>
    ⟨.inr, applied.enabled name, fun _ _ => by rw [applied.none]; rfl⟩
  have ended : start.feed toUpper lineLen lines =
      (lines.flatMap (moves toUpper)).foldl perform start := foldl_flatMap.symm
  refine ⟨fun name => ?_, fun name => ?_, fun before name rest split known off => ?_⟩
  · rw [ended]
    exact ((initial name).run renewed).wanted
  · rw [ended]
    exact ((initial name).run renewed).enabled
  · rw [split] at renewed
    have tracks := (initial name).run renewed.of_append
    generalize before.foldl perform start = reached at tracks off ⊢
    have stashed : _ = kept (before.foldl (said name) []) := tracks.stashed known off
    rw [← stashed, CapState.perform, known, if_neg (by decide)]
    split
    · next value pending => rw [lookup_insert, pending]
    · next pending =>
      rw [pending]
      exact Option.eq_none_iff_forall_ne_some.mpr fun value published => absurd
        (off.symm.trans (tracks.enabled (Option.isSome_iff_exists.mpr ⟨value, published⟩)))
        Bool.false_ne_true

theorem capability_values_announced_batch :
    ((perform {} (.announce [lit "batch=1"])).perform (.enable (lit "batch"))).capVals.lookup
      (lit "batch") = kept (lit "1") := by
  have line : [newMsg "CAP" [lit "me", lit "NEW", lit "batch=1"],
      newMsg "CAP" [lit "me", lit "ACK", lit "batch"]].flatMap (moves id) =
        [.announce [lit "batch=1"]] ++ .enable (lit "batch") :: [] := by decide +kernel
  refine (capability_values_announced id 512 {} ⟨fun _ published => ?_, rfl⟩ _
    (line ▸ ⟨fun _ _ _ _ _ _ => rfl, fun _ _ wrong => ?_, trivial⟩)).2.2 _ _ _ line
    (by decide +kernel) (by decide +kernel)
  · cases published
  · cases wrong

/-- The second NEW takes the value back, and the ACK publishes it all the same. -/
theorem withdrawn_value_published :
    ((({} : CapState).feed id 512 [newMsg "CAP" [lit "me", lit "NEW", lit "batch=1"],
      newMsg "CAP" [lit "me", lit "NEW", lit "batch"],
      newMsg "CAP" [lit "me", lit "ACK", lit "batch"]]).capVals.lookup (lit "batch")) =
        some (lit "1") ∧
    kept ([.announce [lit "batch=1"], .announce [lit "batch"]].foldl (said (lit "batch")) []) =
      none := by
  decide +kernel

end CapState

end Ircthing.Irc
