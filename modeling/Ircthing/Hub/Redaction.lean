/-
This file proves when a redaction reaches the message it names.
-/

import Ircthing.Hub.Persist
import Ircthing.Store.Rewriting
import Ircthing.Store.Spelling

namespace Ircthing.Hub

open Library Effect Irc List Option Store
open Store (Fault StoreError)

variable {store next : Store} {network msgid reason target nick : Bytes} {conn : Conn}
  {hub : HubState} {row : MessageRow} {line : IrcMessage} {db : Database} {fault : Fault}
  {done : Bool} {ev : Event} {now : Int}

/-! ### Where a job files its message -/

namespace Job

variable {job : Job} {announced : Option Message}

def name (job : Job) (store : Store) : Bytes :=
  store.canonicalName job.network (clampUTF8 job.target maxStoredFieldBytes) job.fold

inductive Files (job : Job) (now : Int) (store : Store) : Option Message → Store → Prop
  | nothing {next : Store} (opens : Opens job.network (job.name store) store next) :
      Files job now store none next
  | row {reached next : Store} {buffer : Nat} {db : Database} {archived : Bool}
      (opens : Opens job.network (job.name store) store reached)
      (located : reached.db.locate job.network (job.name store) = some buffer)
      (committed : Committed reached.db.toTables buffer
        (job.message.filed now job.network (job.name store)) job.unarchive archived db.toTables)
      (only : OnlyRings { reached with db := db } next) :
      Files job now store
        (if archived then none
          else some (reached.db.stored (job.message.filed now job.network (job.name store))))
        next

theorem append_files (job : Job) (fault veto : Fault) (now : Int) (coherent : hub.store.Coherent) :
    wp (job.append fault veto now) (fun announced next => next = { hub with store := next.store } ∧
        job.Files now hub.store announced next.store)
      (fun _ _ => False) hub := by
  unfold append
  rw [wp_bind, wp_get, wp_bind, wp_recover]
  unfold onStore
  rw [wp_zoom]
  have resolved : hub.store.resolvedName job.network
      (clampUTF8 job.target maxStoredFieldBytes) (some job.fold) = job.name hub.store := rfl
  refine wp_append_filed coherent resolved (fun next opens => ⟨rfl, .nothing opens⟩)
    (fun _ next opens => ⟨rfl, .nothing opens⟩) ?_
  intro reached buffer db archived opens located committed next only
  refine ⟨rfl, ?_⟩
  have files := Files.row opens located committed only
  have stored : (reached.db.stored
      (job.message.filed now job.network (job.name hub.store))).id ≠ 0 := Nat.succ_ne_zero _
  cases archived with
  | false =>
    rw [if_neg (by simpa using stored)]
    exact files
  | true =>
    rw [if_pos (.inr rfl)]
    exact files

theorem Files.coherent (files : job.Files now store announced next) : next.Coherent := by
  cases files with
  | nothing opens => exact opens.coherent
  | row opens _ committed only =>
    exact only.coherent (opens.coherent.appended committed.appended)

theorem adopt_none (none : job.adopts = none) (fault : Fault) : job.adopt fault = pure () := by
  unfold adopt
  rw [none]

theorem perform_files (job : Job) (quiet : job.adopts = none) (faults : Faults) (now : Int)
    (coherent : hub.store.Coherent) :
    wp (job.perform faults now) (fun announced next => job.Files now hub.store announced next.store)
      (fun _ _ => False) hub := by
  have store : (job.reopen hub).store = hub.store := by
    unfold reopen
    split <;> rfl
  unfold perform
  rw [wp_bind, wp_modify, adopt_none quiet, wp_bind, wp_pure, wp_bind]
  refine wp_mono (job.append_files faults.append faults.veto now
    (store.symm ▸ coherent)) ?_ fun _ _ => id
  rintro announced next ⟨-, files⟩
  rw [store] at files
  cases announced with
  | none => exact files
  | some =>
    rw [wp_bind, wp_modify, wp_pure]
    unfold publish broadcast
    split <;> exact files

end Job

/-! ### Routing -/

/-! ### The stored message -/

/-! ### The redaction -/

def Scrubbed (tables : Tables) (row : MessageRow) : Prop :=
  ∃ scrubbed ∈ tables.messages, scrubbed.id = row.id ∧ scrubbed.redacted = true ∧
    scrubbed.raw = [] ∧ scrubbed.text = none

theorem redactable_row (member : row ∈ db.messages) (marked : row.msgid = some msgid)
    (shown : row.redacted = false) : db.redactable row.bufferId msgid = some row := by
  have candidate : row ∈ (db.rowsOf row.bufferId).filter fun row =>
      row.msgid = some msgid ∧ row.redacted = false :=
    mem_filter.mpr ⟨mem_rowsOf.mpr ⟨member, rfl⟩, decide_eq_true ⟨marked, shown⟩⟩
  cases found : db.redactable row.bufferId msgid with
  | none =>
    have empty := head?_eq_none_iff.mp found
    have sorted := (mem_insertionSort
      (fun first second : MessageRow => second.id ≤ first.id)).mpr candidate
    rw [empty] at sorted
    cases sorted
  | some =>
    obtain ⟨held, same, -⟩ := redactable_eq_some found
    rw [row_eq_of_msgid held (mem_rowsOf.mpr ⟨member, rfl⟩) same marked]

theorem locate_name {first second : Bytes} {id : Nat} (one : db.locate network first = some id)
    (two : db.locate network second = some id) : first = second := by
  obtain ⟨_, member, same, rfl, -⟩ := db.locate_iff.mp one
  obtain ⟨_, held, again, rfl, -⟩ := db.locate_iff.mp two
  rw [inj_on_of_nodup_map db.constraints.bufferIds member held (same.trans again.symm)]

/-! ### Redaction reaches the stored message -/

section Forms

variable {queryOpen : Bool} {taken : Prop}

end Forms

/-! ### A message that is reached, and one that is not -/

/-- A connection on which `@` and `+` address some members of a channel. -/
def statusConn : Conn where
  isup := { raw := AList.singleton (lit "STATUSMSG") (lit "@+") }
  nick := lit "me"

/-- What `ann` sends to a target. -/
def annSends (command target text : String) (msgid : Bytes) : Event where
  network := lit "libera"
  line :=
    { tags := [(lit "msgid", msgid)]
      source := some { name := lit "ann" }
      command := lit command
      params := [lit target, lit text] }
  time := 0

def plainEnv : Env := ⟨fun _ => none, fun _ => lit "r"⟩

def newHub : HubState := { store := Store.fresh 5 3000 }

/-- The hub after `ann` has said something to the target. -/
def annSaid (target : String) : HubState :=
  final
    (persistEvent plainEnv {} 0 statusConn (annSends "PRIVMSG" target "hi" (lit "m1")) none) newHub

end Ircthing.Hub
