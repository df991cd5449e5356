/-
This file models the rows of the message list and the index that the virtual list keeps of them, and
proves when the index is exact. Rows are compared by their anchors, which do not tell a presence
event from a run that ends with it.
-/

import Ircthing.Library.Machine
import Mathlib.Data.List.Nodup
import Mathlib.Logic.Function.Basic

namespace Ircthing.Web.VirtualList

open Library List

inductive Command
  | join | part | quit | nick | other
deriving DecidableEq

/-- An event that replaces another one is another object. -/
structure Event where
  id : Nat
  object : Nat
  command : Command
  whois : Bool := false

def isPresence (ev : Event) : Bool := ev.command ≠ .other && !ev.whois

/-- A row of `applyStatusMode`. It makes a new object for each row of a run. -/
inductive Row
  | event (ev : Event)
  | collapse (run : List Event) (filled : run ≠ []) (expanded : Bool)

/-- The id of a run is `clp-` with an id of an event; no event has such an id. -/
inductive RowId
  | event (id : Nat)
  | clp (id : Nat)
deriving DecidableEq

def Row.id : Row → RowId
  | .event ev => .event ev.id
  | .collapse run filled _ => .clp (run.getLast filled).id

def Row.anchorId : Row → Nat
  | .event ev => ev.id
  | .collapse run filled _ => (run.getLast filled).id

def Row.same : Row → Row → Bool
  | .event ev, .event other => ev.object = other.object
  | _, _ => false

inductive Mode
  | show | hide | collapse

def rowsOfRun (expanded : Nat → Bool) : List Event → List Row
  | [] => []
  | [ev] => [.event ev]
  | first :: second :: rest =>
    let run := first :: second :: rest
    let isOpen := run.any fun ev => expanded ev.id
    .collapse run (cons_ne_nil _ _) isOpen :: if isOpen then run.map .event else []

/-- The loop of `applyStatusMode`, with the run that has begun. -/
def foldRuns (expanded : Nat → Bool) : List Event → List Event → List Row
  | run, [] => rowsOfRun expanded run
  | run, ev :: rest =>
    if isPresence ev then foldRuns expanded (run ++ [ev]) rest
    else rowsOfRun expanded run ++ ([.event ev] ++ foldRuns expanded [] rest)

def applyStatusMode (list : List Event) (expanded : Nat → Bool) : Mode → List Row
  | .show => list.map .event
  | .hide => (list.filter (!isPresence ·)).map .event
  | .collapse => foldRuns expanded [] list

variable (old items : List Row)

def sameAt (i : Nat) : Bool :=
  (items[i]?).any fun row => (old[i]?).any row.same

def isAppendOf : Bool :=
  old.length > 0 && items.length ≥ old.length && sameAt old items 0 &&
    sameAt old items (old.length - 1)

def hasNonAppendIdentityChange : Bool :=
  if old.length = 0 then false
  else (old.zip items).any (fun rows => rows.1.anchorId ≠ rows.2.anchorId) ||
    items.length < old.length

abbrev Index := RowId → Option Nat

def setAll (entries : List (RowId × Nat)) (index : Index) : Index :=
  entries.foldl (fun index entry => Function.update index entry.1 (some entry.2)) index

structure Geometry where
  items : List Row := []
  index : Index := fun _ => none

variable (geo : Geometry)

def Geometry.setItems (items : List Row) (forceRebuild : Bool) : Geometry where
  items := items
  index :=
    if forceRebuild = false ∧ isAppendOf geo.items items = true then
      setAll (((items.drop geo.items.length).map Row.id).zipIdx geo.items.length) geo.index
    else setAll (items.map Row.id).zipIdx fun _ => none

/-- A render with another array; the same one again changes nothing. -/
def Geometry.sync (items : List Row) : Geometry :=
  geo.setItems items (hasNonAppendIdentityChange geo.items items)

/-- What the list is rendered from: events with distinct ids, the runs that are open, and the
mode. -/
structure Render where
  list : List Event
  distinct : (list.map Event.id).Nodup
  expanded : Nat → Bool
  mode : Mode

def Render.rows (render : Render) : List Row :=
  applyStatusMode render.list render.expanded render.mode

def Geometry.render (render : Render) : Geometry := geo.sync render.rows

/-! ### The ids of the rows -/

structure Within (ids : List Nat) (rows : List Row) : Prop where
  nodup : (rows.map Row.id).Nodup
  anchors : ∀ row ∈ rows, row.anchorId ∈ ids

variable {ids more : List Nat} {rows others : List Row} {expanded : Nat → Bool}

theorem Within.append (distinct : (ids ++ more).Nodup) (first : Within ids rows)
    (second : Within more others) : Within (ids ++ more) (rows ++ others) := by
  constructor
  · rw [map_append, nodup_append]
    refine ⟨first.nodup, second.nodup, ?_⟩
    simp only [forall_mem_map]
    intro row member other later same
    -- the id of a row determines its anchor
    have anchor : row.anchorId = other.anchorId := by
      cases row <;> cases other <;> simp_all [Row.id, Row.anchorId]
    exact (nodup_append.mp distinct).2.2 _ (first.anchors row member) _
      (second.anchors other later) anchor
  · intro row member
    rw [mem_append] at member ⊢
    exact member.imp (first.anchors row) (second.anchors row)

theorem within_events (events : List Event) (distinct : (events.map Event.id).Nodup) :
    Within (events.map Event.id) (events.map .event) := by
  constructor
  · have ids := distinct.map fun _ _ same => RowId.event.inj same
    rw [map_map] at ids ⊢
    exact ids
  · simp only [forall_mem_map]
    exact fun ev member => mem_map_of_mem member

theorem within_rowsOfRun {run : List Event} (distinct : (run.map Event.id).Nodup) :
    Within (run.map Event.id) (rowsOfRun expanded run) := by
  match run with
  | [] => exact ⟨nodup_nil, nofun⟩
  | [ev] => exact within_events _ distinct
  | first :: second :: rest =>
    have events := within_events _ distinct
    have last := mem_map_of_mem (f := Event.id) (getLast_mem (cons_ne_nil first (second :: rest)))
    unfold rowsOfRun
    dsimp only
    split
    · refine ⟨nodup_cons.mpr ⟨?_, events.nodup⟩, forall_mem_cons.mpr ⟨last, events.anchors⟩⟩
      simp [Row.id]
    · exact ⟨nodup_singleton _, forall_mem_singleton.mpr last⟩

theorem within_foldRuns (run rest : List Event) (distinct : ((run ++ rest).map Event.id).Nodup) :
    Within ((run ++ rest).map Event.id) (foldRuns expanded run rest) := by
  induction rest generalizing run with
  | nil =>
    rw [append_nil] at distinct ⊢
    exact within_rowsOfRun distinct
  | cons ev rest ih =>
    rw [foldRuns]
    split
    · rw [append_cons] at distinct ⊢
      exact ih _ distinct
    · rw [map_append] at distinct ⊢
      have apart := nodup_append.mp distinct
      have alone : Within [ev.id] [.event ev] := within_events [ev] (nodup_singleton _)
      exact (within_rowsOfRun apart.1).append distinct
        (alone.append apart.2.1 (ih [] (nodup_cons.mp apart.2.1).2))

theorem nodup_applyStatusMode {list : List Event} (distinct : (list.map Event.id).Nodup)
    (mode : Mode) : ((applyStatusMode list expanded mode).map Row.id).Nodup := by
  cases mode with
  | «show» => exact (within_events _ distinct).nodup
  | hide => exact (within_events _ (distinct.sublist (filter_sublist.map _))).nodup
  | collapse => exact (within_foldRuns [] list distinct).nodup

/-! ### The index -/

/-- The index has the ids of the items, each at its position, and no other. -/
def Geometry.Exact : Prop :=
  ∀ id i, geo.index id = some i ↔ (id, i) ∈ (geo.items.map Row.id).zipIdx

theorem setAll_eq_some {entries : List (RowId × Nat)} (distinct : (entries.map Prod.fst).Nodup)
    {index : Index} {id : RowId} {i : Nat} :
    setAll entries index id = some i ↔
      (id, i) ∈ entries ∨ id ∉ entries.map Prod.fst ∧ index id = some i := by
  induction entries generalizing index with
  | nil => simp [setAll]
  | cons entry entries ih =>
    obtain ⟨key, position⟩ := entry
    rw [map_cons, nodup_cons] at distinct
    refine (ih distinct.2).trans ?_
    by_cases same : id = key
    · subst same
      have absent : (id, i) ∉ entries := fun member => distinct.1 (mem_map.mpr ⟨_, member, rfl⟩)
      simp [absent, distinct.1, eq_comm]
    · simp [same]

/-- Where the index is not built anew, every old row stands where one with its id stands now. -/
abbrev KeepsIds : Prop :=
  isAppendOf old items = true → hasNonAppendIdentityChange old items = false →
    ∀ rows ∈ old.zip items, rows.1.id = rows.2.id

theorem map_id_take {old items : List Row} (keeps : KeepsIds old items)
    (unchanged : hasNonAppendIdentityChange old items = false)
    (appends : isAppendOf old items = true) :
    (items.take old.length).map Row.id = old.map Row.id := by
  have same := keeps appends unchanged
  simp only [isAppendOf, Bool.and_eq_true, decide_eq_true_eq] at appends
  refine ext_getElem (by simp; omega) fun i inside within => ?_
  simp only [length_map] at within
  have pair : (old[i], items[i]) ∈ old.zip items := by
    rw [← getElem_zip (h := by simp; omega)]
    exact getElem_mem _
  simpa using (same _ pair).symm

theorem Geometry.Exact.sync {geo : Geometry} {items : List Row} (exact : geo.Exact)
    (distinct : (items.map Row.id).Nodup) (keeps : KeepsIds geo.items items) :
    (geo.sync items).Exact := by
  intro id i
  unfold Geometry.sync Geometry.setItems
  dsimp only
  split
  next fast =>
    have before := map_id_take keeps fast.1 fast.2
    have parts : items.map Row.id =
        geo.items.map Row.id ++ (items.drop geo.items.length).map Row.id := by
      rw [← before, ← map_append, take_append_drop]
    rw [parts] at distinct ⊢
    obtain ⟨-, new, apart⟩ := nodup_append.mp distinct
    rw [setAll_eq_some (by rwa [zipIdx_map_fst]), zipIdx_map_fst, exact id i,
      zipIdx_append, mem_append, length_map, Nat.zero_add, or_comm]
    refine or_congr_left (and_iff_right_of_imp fun old later => ?_)
    exact apart id (fst_mem_of_mem_zipIdx old) id later rfl
  · rw [setAll_eq_some (by rwa [zipIdx_map_fst])]
    simp

/-- After any renders in which rows keep their ids, the index maps exactly the ids of the items,
each to its position. -/
theorem index_exact (geo : Geometry)
    (reached : Machine.Reaches (Machine.always Geometry.render)
      (fun geo render => KeepsIds geo.items render.rows) {} geo) : geo.Exact := by
  refine reached.invariant (fun id i => by simp) ?_
  rintro before render _ exact keeps ⟨⟩
  exact exact.sync (nodup_applyStatusMode render.distinct render.mode) keeps

def event (id : Nat) (command : Command) : Event := { id, object := id, command }

def appended : Render :=
  ⟨[event 1 .other, event 2 .join], by decide, fun _ => false, .collapse⟩

theorem index_exact_append :
    ∃ geo, Machine.Reaches (Machine.always Geometry.render)
        (fun geo render => KeepsIds geo.items render.rows) {} geo ∧
      geo.items.map Row.id = [.event 1, .event 2] ∧ geo.Exact := by
  have first : Machine.Reaches (Machine.always Geometry.render)
      (fun geo render => KeepsIds geo.items render.rows) {} _ :=
    .tail ⟨[event 1 .other], by decide, fun _ => false, .collapse⟩ .refl nofun rfl
  have second := first.tail appended (by decide) rfl
  exact ⟨_, second, rfl, index_exact _ second⟩

/-- An older join is inserted before one that stands alone: the row of both is not in the index. -/
theorem inserted_join_unindexed :
    ∃ geo, Machine.Reaches (Machine.always Geometry.render)
        (fun _ _ => True) {} geo ∧
      geo.items.map Row.id = [.event 1, .clp 3, .event 4] ∧ geo.index (.clp 3) = none := by
  have first : Machine.Reaches (Machine.always Geometry.render)
      (fun _ _ => True) {} _ :=
    .tail ⟨[event 1 .other, event 3 .join, event 4 .other], by decide, fun _ => false, .collapse⟩
      .refl trivial rfl
  have second := first.tail ⟨[event 1 .other, event 2 .join, event 3 .join, event 4 .other],
    by decide, fun _ => false, .collapse⟩ trivial rfl
  exact ⟨_, second, rfl, rfl⟩

end Ircthing.Web.VirtualList
