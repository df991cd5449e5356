/-
This file models what the store keeps in SQLite: the tables, the constraints the schema puts on
them, and the queries the store runs. A `Database` is a set of tables with a proof that they meet
the constraints. Timestamps are nanoseconds in memory and milliseconds in the table.
-/

import Ircthing.Golang.Strings
import Ircthing.Library.Window
import Mathlib.Algebra.Order.Ring.Int
import Mathlib.Algebra.BigOperators.Group.List.Basic
import Mathlib.Data.Prod.Lex

namespace Ircthing.Store

open Library

/-! ### Messages and cursors -/

/-- `time.Time{}`, the first instant of the year one, in nanoseconds of the Unix epoch. -/
def zeroTime : Int := -62135596800 * 10 ^ 9

def unixMilli (time : Int) : Int := time / 10 ^ 6

/-- `time.UnixMilli`. -/
def ofUnixMilli (milliseconds : Int) : Int := milliseconds * 10 ^ 6

theorem unixMilli_ofUnixMilli (milliseconds : Int) :
    unixMilli (ofUnixMilli milliseconds) = milliseconds := by
  unfold unixMilli ofUnixMilli
  omega

structure Message where
  id : Nat := 0
  network : Bytes := []
  target : Bytes := []
  time : Int := zeroTime
  msgID : Bytes := []
  sender : Bytes := []
  command : Bytes := []
  raw : Bytes := []
  text : Bytes := []
  redacted : Bool := false
  redactReason : Bytes := []
deriving DecidableEq

/-- `Cursor`: a position in the history of a buffer. -/
structure Cursor where
  ts : Int
  id : Int
deriving DecidableEq

def Message.cursor (message : Message) : Cursor := ⟨unixMilli message.time, message.id⟩

def maxCursor : Cursor := ⟨2 ^ 63 - 1, 2 ^ 63 - 1⟩

variable (first second : Cursor)

def cursorLess : Bool :=
  first.ts < second.ts || (first.ts == second.ts && first.id < second.id)

instance : LinearOrder Cursor :=
  LinearOrder.lift' (fun cursor => toLex (cursor.ts, cursor.id)) fun first second same => by
    cases first
    cases second
    simpa using same

theorem cursor_lt_iff {first second : Cursor} :
    first < second ↔ first.ts < second.ts ∨ (first.ts = second.ts ∧ first.id < second.id) :=
  Prod.Lex.toLex_lt_toLex

theorem cursorLess_eq :
    cursorLess first second = decide (first < second) := by
  rw [Bool.eq_iff_iff, decide_eq_true_iff, cursor_lt_iff]
  simp [cursorLess]

/-! ### Tables -/

/-- A row of `networks`. The only user the application runs as owns every row. -/
structure NetworkRow where
  id : Nat
  name : Bytes
deriving DecidableEq

/-- A row of `buffers`. -/
structure BufferRow where
  id : Nat
  networkId : Nat
  name : Bytes
  archived : Bool := false
deriving DecidableEq

/-- A row of `messages`. -/
structure MessageRow where
  id : Nat
  bufferId : Nat
  ts : Int
  msgid : Option Bytes
  sender : Bytes
  command : Bytes
  raw : Bytes
  text : Option Bytes
  redacted : Bool := false
  redactReason : Option Bytes := none
deriving DecidableEq

/-- A row of `network_configs`. -/
structure ConfigRow where
  rowid : Nat
  name : Bytes
  config : Bytes
deriving DecidableEq

def MessageRow.cursor (row : MessageRow) : Cursor := ⟨row.ts, row.id⟩

structure Tables where
  networks : List NetworkRow := []
  buffers : List BufferRow := []
  messages : List MessageRow := []
  configs : List ConfigRow := []
  settings : List (Bytes × Bytes) := []
deriving DecidableEq

structure Tables.Constraints (tables : Tables) : Prop where
  networkIds : (tables.networks.map (·.id)).Nodup
  networkNames : (tables.networks.map (·.name)).Nodup
  bufferIds : (tables.buffers.map (·.id)).Nodup
  bufferNames : (tables.buffers.map fun row => (row.networkId, row.name)).Nodup
  bufferNetworks : ∀ row ∈ tables.buffers, row.networkId ∈ tables.networks.map (·.id)
  messageIds : (tables.messages.map (·.id)).Nodup
  messageMsgids :
    (tables.messages.filterMap fun row => row.msgid.map fun msgid => (row.bufferId, msgid)).Nodup
  messageBuffers : ∀ row ∈ tables.messages, row.bufferId ∈ tables.buffers.map (·.id)
  configIds : (tables.configs.map (·.rowid)).Nodup
  configNames : (tables.configs.map (·.name)).Nodup
  settingKeys : (tables.settings.map (·.1)).Nodup

instance (tables : Tables) : Decidable tables.Constraints :=
  decidable_of_iff
    ((tables.networks.map (·.id)).Nodup ∧ (tables.networks.map (·.name)).Nodup ∧
      (tables.buffers.map (·.id)).Nodup ∧
      (tables.buffers.map fun row => (row.networkId, row.name)).Nodup ∧
      (∀ row ∈ tables.buffers, row.networkId ∈ tables.networks.map (·.id)) ∧
      (tables.messages.map (·.id)).Nodup ∧
      (tables.messages.filterMap fun row =>
        row.msgid.map fun msgid => (row.bufferId, msgid)).Nodup ∧
      (∀ row ∈ tables.messages, row.bufferId ∈ tables.buffers.map (·.id)) ∧
      (tables.configs.map (·.rowid)).Nodup ∧ (tables.configs.map (·.name)).Nodup ∧
      (tables.settings.map (·.1)).Nodup)
    ⟨fun ⟨a, b, c, d, e, f, g, h, i, j, k⟩ => ⟨a, b, c, d, e, f, g, h, i, j, k⟩,
      fun ⟨a, b, c, d, e, f, g, h, i, j, k⟩ => ⟨a, b, c, d, e, f, g, h, i, j, k⟩⟩

structure Database extends Tables where
  constraints : toTables.Constraints
deriving DecidableEq

namespace Database

def empty : Database := ⟨{}, by decide⟩

/-- A statement leaves the tables it computes when they meet the constraints, and fails when
they do not. -/
def write (tables : Tables) : Option Database :=
  if valid : tables.Constraints then some ⟨tables, valid⟩ else none

theorem write_eq_some {tables : Tables} {database : Database}
    (written : write tables = some database) : database.toTables = tables := by
  unfold write at written
  split at written
  · cases written
    rfl
  · cases written

end Database

def nextId (ids : List Nat) : Nat := ids.foldr max 0 + 1

theorem lt_nextId {ids : List Nat} {id : Nat} (used : id ∈ ids) : id < nextId ids := by
  induction ids with
  | nil => cases used
  | cons _ _ ih =>
    unfold nextId at ih ⊢
    rw [List.foldr_cons]
    rcases List.mem_cons.mp used with rfl | later
    · omega
    · have := ih later
      omega

namespace Tables

/-! ### Queries -/

variable (tables : Tables)

/-- `SELECT id FROM networks WHERE user_id = ? AND name = ?`. -/
def networkId (name : Bytes) : Option Nat :=
  (tables.networks.find? fun row => row.name = name).map (·.id)

/-- `SELECT id FROM buffers WHERE network_id = ? AND name = ?`. -/
def bufferId (network : Nat) (name : Bytes) : Option Nat :=
  (tables.buffers.find? fun row => row.networkId = network ∧ row.name = name).map (·.id)

/-- `SELECT b.name FROM buffers b JOIN networks n ... WHERE n.name = ?`. -/
def bufferNamesOf (network : Bytes) : List Bytes :=
  (tables.buffers.filter fun row => tables.networkId network = some row.networkId).map (·.name)

variable (buffer : Nat)

def rowsOf : List MessageRow :=
  tables.messages.filter fun row => row.bufferId = buffer

variable (rows : List MessageRow)

/-- `ORDER BY ts DESC, id DESC`. -/
def newestFirst : List MessageRow :=
  rows.insertionSort fun first second => second.cursor ≤ first.cursor

/-- `ORDER BY ts ASC, id ASC`. -/
def oldestFirst : List MessageRow := ordered MessageRow.cursor rows

/-- The page query of `Before`, newest row first. -/
def queryBefore (cursor : Cursor) (limit : Nat) : List MessageRow :=
  (newestFirst ((tables.rowsOf buffer).filter fun row =>
    row.ts < cursor.ts || (row.ts == cursor.ts && row.id < cursor.id))).take limit

/-- The page query of `After`, oldest row first. -/
def queryAfter (cursor : Cursor) (limit : Nat) : List MessageRow :=
  (oldestFirst ((tables.rowsOf buffer).filter fun row =>
    cursor.ts < row.ts || (row.ts == cursor.ts && cursor.id < row.id))).take limit

end Tables

end Ircthing.Store
