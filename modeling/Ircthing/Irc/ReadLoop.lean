/-
This file models the read loop of a connection as far as it decides which lines are replayed
history: registration, which hands every line to the hub, and the steady state, which leaves out the
live side effects of a line that belongs to an open chathistory batch.
-/

import Ircthing.Irc.Handshake
import Ircthing.Irc.Multiline
import Ircthing.Irc.Roster

namespace Ircthing.Irc

open Library

/-! ### Batch references -/

def maxOpenHistBatches : Nat := 256

def maxBatchRefBytes : Nat := 512

variable (digest : Bytes → Bytes)

def clampBatchRef (ref : Bytes) : Bytes :=
  if ref.length ≤ maxBatchRefBytes then ref else 0x00 :: digest ref

theorem clampBatchRef_eq_nil {digest : Bytes → Bytes} {ref : Bytes} :
    clampBatchRef digest ref = [] ↔ ref = [] := by
  rw [clampBatchRef]
  split
  · exact Iff.rfl
  · next long =>
    refine ⟨nofun, fun empty => ?_⟩
    rw [empty] at long
    exact absurd (Nat.zero_le _) long

variable (tags : List (Bytes × Bytes))

def batchRef : Bytes :=
  ((tags.find? fun entry => entry.1 = lit "batch").map (·.2)).getD []

def batchKey : Bytes :=
  clampBatchRef digest (batchRef tags)

def opensHistory (line : IrcMessage) : Option Bytes :=
  if line.command = lit "BATCH" ∧ line.param 1 = lit "chathistory" then
    cutPrefix (line.param 0) (lit "+")
  else none

/-- `histBatch`: the open chathistory batches. -/
abbrev OpenBatches := Dict Bytes Unit

def trackChathistoryBatch (line : IrcMessage) (histBatch : OpenBatches) :
    Except Bytes OpenBatches :=
  match opensHistory line with
  | some ref =>
    if maxOpenHistBatches ≤ histBatch.size then
      .error (lit "irc: too many open chathistory batches (>256)")
    else if clampBatchRef digest ref = [] then .ok histBatch
    else .ok (histBatch.insert (clampBatchRef digest ref) ())
  | none =>
    match closesBatch line with
    | some ref => .ok (histBatch.erase (clampBatchRef digest ref))
    | none => .ok histBatch

def playback (histBatch : OpenBatches) (tags : List (Bytes × Bytes)) : Bool :=
  batchRef tags ≠ [] && (histBatch.lookup (batchKey digest tags)).isSome

/-! ### The loop -/

structure Emission where
  message : IrcMessage
  playback : Bool
deriving DecidableEq

inductive ReadLoop
  | registering (h : Handshake)
  | serving (connection : Connection) (histBatch : OpenBatches) (ml : Multiline)
  | ended

namespace ReadLoop

/-- One turn of `register`; `failed` says that an answer could not be queued. -/
def register (env : Env) (h : Handshake) (line : IrcMessage) (failed : Bool) :
    ReadLoop × List Emission :=
  let (next, reply) := h.handle env line
  if failed || reply.error.isSome then (.ended, [])
  else (if reply.done then .serving { nick := next.nick } ∅ ∅ else .registering next,
    [⟨line, false⟩])

/-- `processLine`; `failed` says that an answer could not be queued. A multiline message goes to the
hub without the test for playback. -/
def processLine (digest : Bytes → Bytes) (limits : Limits) (connection : Connection)
    (histBatch : OpenBatches) (ml : Multiline) (line : IrcMessage) (failed : Bool) :
    ReadLoop × List Emission :=
  let (ml, fed) := feed ml line
  if failed || fed.error.isSome then (.ended, [])
  else if fed.consumed then
    (.serving connection histBatch ml, fed.emit.toList.map fun message => ⟨message, false⟩)
  else
    match trackChathistoryBatch digest line histBatch with
    | .error _ => (.ended, [])
    | .ok histBatch =>
      match connection.processLine limits (playback digest histBatch line.tags) line with
      | none => (.ended, [])
      | some connection =>
        (.serving connection histBatch ml, [⟨line, playback digest histBatch line.tags⟩])

end ReadLoop

end Ircthing.Irc
