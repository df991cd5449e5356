/-
This file models the registry of login sessions: the tokens with the times they expire, and the
sockets and streams that hang on each of them. Every change of the registry is one critical section
of the server's mutex, so each is one function of the model.
-/

import Ircthing.Golang.Strings
import Ircthing.Library.Dict

namespace Ircthing.Api

open Library Dict

inductive Cancel where
  | socket (id : Nat)
  | stream (id : Nat)
deriving DecidableEq

/-- The fields of `Server` that the mutex `mu` guards. -/
structure Registry where
  tokens : Dict Bytes Int := ∅
  wsCancels : Dict Bytes (List Nat) := ∅
  streamCancels : Dict Bytes (List Nat) := ∅

def maxSessions : Nat := 128

namespace Registry

variable {now : Int} (r : Registry)

/-- `deleteTokenLocked`, with `cancelSocketsLocked` and `cancelStreamsLocked`. -/
def deleteTokenLocked (token : Bytes) : Registry × List Cancel :=
  ({ tokens := r.tokens.erase token
     wsCancels := r.wsCancels.erase token
     streamCancels := r.streamCancels.erase token },
    ((r.wsCancels.lookup token).getD []).map .socket ++
      ((r.streamCancels.lookup token).getD []).map .stream)

def deleteTokens (tokens : List Bytes) : Registry × List Cancel :=
  tokens.foldl (fun (r, cancels) token =>
    let (r, more) := r.deleteTokenLocked token
    (r, cancels ++ more)) (r, [])

def oldest : Option Bytes :=
  (r.tokens.entries.foldl (fun (best : Option (Bytes × Int)) entry =>
    match best with
    | none => some (entry.1, entry.2)
    | some (token, expiry) =>
      if entry.2 < expiry then some (entry.1, entry.2) else some (token, expiry)) none).map (·.1)

/-- The second loop of `issueToken`: make room. The fuel is the number of tokens. -/
def evict : Nat → Registry × List Cancel → Registry × List Cancel
  | 0, state => state
  | fuel + 1, (r, cancels) =>
    if r.tokens.entries.length ≥ maxSessions then
      match r.oldest with
      | some token =>
        let (r, more) := r.deleteTokenLocked token
        evict fuel (r, cancels ++ more)
      | none => (r, cancels)
    else (r, cancels)

/-- The critical section of `issueToken` after the generation has been checked. -/
def issue (token : Bytes) (now ttl : Int) : Registry × List Cancel :=
  let expired := (r.tokens.entries.filter fun entry => now > entry.2).map (·.1)
  let (r, cancels) := r.deleteTokens expired
  let (r, cancels) := evict r.tokens.entries.length (r, cancels)
  ({ r with tokens := r.tokens.insert token (now + ttl) }, cancels)

def tokenValid (token : Bytes) (now : Int) : (Registry × List Cancel) × Bool :=
  match r.tokens.lookup token with
  | none => ((r, []), false)
  | some expiry => if now > expiry then (r.deleteTokenLocked token, false) else ((r, []), true)

def registered (token : Bytes) : List Cancel :=
  ((r.wsCancels.lookup token).getD []).map .socket ++
    ((r.streamCancels.lookup token).getD []).map .stream

variable (cancels : Dict Bytes (List Nat))

def enter (token : Bytes) (id : Nat) : Dict Bytes (List Nat) :=
  cancels.insert token ((cancels.lookup token).getD [] ++ [id])

def leave (token : Bytes) (id : Nat) : Dict Bytes (List Nat) :=
  match cancels.lookup token with
  | none => cancels
  | some ids =>
    let rest := ids.filter (· != id)
    if rest = [] then cancels.erase token else cancels.insert token rest

def admits (token : Bytes) (now : Int) : Bool :=
  token != [] && (r.tokens.lookup token).any fun expiry => !decide (now > expiry)

/-- `registerWSCancel` under the next identifier, `none` where it refuses. -/
def registerWSCancel (token : Bytes) (id : Nat) (now : Int) : Option Registry :=
  if r.admits token now then some { r with wsCancels := enter r.wsCancels token id } else none

/-- `registerStreamCancel` under the next identifier, `none` where it refuses. -/
def registerStreamCancel (token : Bytes) (id : Nat) (now : Int) : Option Registry :=
  if r.admits token now then some { r with streamCancels := enter r.streamCancels token id }
  else none

/-- The function `registerWSCancel` returns. -/
def unregisterWS (token : Bytes) (id : Nat) : Registry :=
  { r with wsCancels := leave r.wsCancels token id }

/-- The function `registerStreamCancel` returns. -/
def unregisterStream (token : Bytes) (id : Nat) : Registry :=
  { r with streamCancels := leave r.streamCancels token id }

/-- The loop of `handleChangePassword` that revokes every token. -/
def revokeAll : Registry × List Cancel :=
  r.deleteTokens (r.tokens.entries.map (·.1))

/-! ### Which tokens there are -/

def Has (token : Bytes) : Prop := (r.tokens.lookup token).isSome

instance (r : Registry) (token : Bytes) : Decidable (r.Has token) :=
  inferInstanceAs (Decidable (_ = true))

variable {r : Registry} {token other : Bytes}

theorem has_deleteTokenLocked :
    (r.deleteTokenLocked token).1.Has other ↔ other ≠ token ∧ r.Has other := by
  unfold Has deleteTokenLocked
  rw [lookup_erase_eq]
  by_cases same : other = token <;> simp [same]

theorem has_deleteTokens {tokens : List Bytes} :
    (r.deleteTokens tokens).1.Has other ↔ other ∉ tokens ∧ r.Has other := by
  have general : ∀ cancels, (tokens.foldl (fun (r, cancels) token =>
      let (r, more) := Registry.deleteTokenLocked r token
      (r, cancels ++ more)) (r, cancels)).1.Has other ↔ other ∉ tokens ∧ r.Has other := by
    induction tokens generalizing r with
    | nil => simp
    | cons _ _ hypothesis =>
      intro cancels
      rw [List.foldl_cons, hypothesis, has_deleteTokenLocked, List.mem_cons, not_or]
      tauto
  exact general []

theorem has_of_evict {fuel : Nat} {cancels : List Cancel}
    (kept : (evict fuel (r, cancels)).1.Has other) : r.Has other := by
  induction fuel generalizing r cancels with
  | zero => exact kept
  | succ _ hypothesis =>
    rw [evict] at kept
    split at kept
    · split at kept
      · exact (has_deleteTokenLocked.mp (hypothesis kept)).2
      · exact kept
    · exact kept

theorem has_of_issue {ttl : Int} (held : (r.issue token now ttl).1.Has other) :
    other = token ∨ r.Has other := by
  unfold issue at held
  unfold Has at held
  rw [lookup_insert_eq] at held
  split at held
  next same =>
    exact .inl same
  · exact .inr (has_deleteTokens.mp (has_of_evict held)).2

theorem has_of_tokenValid (held : (r.tokenValid token now).1.1.Has other) : r.Has other := by
  unfold tokenValid at held
  split at held
  · exact held
  · split at held
    · exact (has_deleteTokenLocked.mp held).2
    · exact held

theorem has_of_valid (valid : (r.tokenValid token now).2 = true) : r.Has token := by
  unfold tokenValid at valid
  split at valid
  · cases valid
  next found =>
    rw [Has, found]
    rfl

theorem not_has_revokeAll : ¬ r.revokeAll.1.Has other := by
  rw [revokeAll, has_deleteTokens]
  rintro ⟨unlisted, held⟩
  obtain ⟨expiry, found⟩ := Option.isSome_iff_exists.mp held
  exact unlisted (List.mem_map.mpr ⟨⟨other, expiry⟩, mem_of_lookup found, rfl⟩)

end Registry

end Ircthing.Api
