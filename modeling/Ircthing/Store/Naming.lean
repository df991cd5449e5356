/-
This file proves under which names messages are filed, whatever bytes their targets hold.
-/

import Ircthing.Golang.Utf8
import Ircthing.Store.Filing

namespace Ircthing.Store

open Library Effect List Relation

variable {store next : Store} {network target : Bytes}

/-! ### Buffers without a name -/

def Tables.Named (tables : Tables) : Prop := ∀ row ∈ tables.buffers, row.name ≠ []

/-- A target short enough to be kept, or one with a complete rune in the bytes that are kept. -/
def Nameable (target : Bytes) : Prop :=
  target.length ≤ maxStoredFieldBytes ∨
    ∃ value bytes, IsRune (value, bytes) ∧ bytes <:+: target.take maxStoredFieldBytes

theorem trimPartialRune_eq_nil {back : Bytes} : trimPartialRune back = [] ↔
    ∀ value bytes, IsRune (value, bytes) → ¬ bytes <:+: back.reverse := by
  induction back with
  | nil => exact iff_of_true rfl fun _ _ is inside => is.1 (infix_nil.mp inside)
  | cons last earlier ih =>
    rw [trimPartialRune]
    split
    next cut =>
      rw [ih, reverse_cons]
      refine forall₃_congr fun value bytes is => ?_
      rw [infix_concat_iff, not_or, iff_and_self]
      rintro - ⟨before, whole⟩
      refine is.decodeLastRune before ?_
      rw [whole, reverse_append, reverse_reverse]
      exact cut
    next complete =>
      obtain ⟨before, value, more, is, same⟩ := exists_isRune_of_decodeLastRune complete
      refine iff_of_false (cons_ne_nil _ _) fun none => none value _ is ⟨before, [], ?_⟩
      rw [append_nil, ← append_assoc, same, reverse_cons]

/-- The targets of which nothing is left are the empty one and those without a name. -/
theorem clampUTF8_eq_nil :
    clampUTF8 target maxStoredFieldBytes = [] ↔ target = [] ∨ ¬ Nameable target := by
  unfold clampUTF8 Nameable
  split
  next short => simp [short]
  next long =>
    have filled : target ≠ [] := by
      rintro rfl
      exact long (Nat.zero_le _)
    rw [reverse_eq_nil_iff, trimPartialRune_eq_nil, reverse_reverse]
    simp [long, filled]

theorem resolvedName_ne_nil (named : store.db.Named) (given : target ≠ []) (network : Bytes)
    (fold : Option (Bytes → Bytes)) : store.resolvedName network target fold ≠ [] := by
  cases fold with
  | none => exact given
  | some fold =>
    show store.canonicalName network target fold ≠ []
    unfold canonicalName
    split
    · exact given
    cases found : store.db.foldedName network target fold with
    | none => exact given
    | some =>
      obtain ⟨row, member, rfl⟩ := mem_map.mp (mem_of_find?_eq_some found)
      exact named row (mem_of_mem_filter member)

theorem Opens.named {name : Bytes} (opens : Opens network name store next)
    (named : store.db.Named) (given : name ≠ []) : next.db.Named := by
  obtain ⟨_, buffers, rows⟩ := opens.buffers
  intro row member
  rw [buffers] at member
  rcases mem_append.mp member with old | new
  · exact named row old
  · rw [(rows row new).1]
    exact given

theorem append_named (coherent : store.Coherent) (named : store.db.Named)
    (nameable : Nameable target) (fault vetoFault : Fault) (now : Int) (network : Bytes)
    (message : Message) (opts : AppendOpts) :
    wp (append fault vetoFault now network target message opts)
      (fun _ next => next.Coherent ∧ next.db.Named) (fun _ next => next.Coherent ∧ next.db.Named)
      store := by
  by_cases empty : target = []
  · unfold append
    rw [if_pos (.inr empty)]
    exact ⟨coherent, named⟩
  have kept : clampUTF8 target maxStoredFieldBytes ≠ [] := fun cut =>
    (clampUTF8_eq_nil.mp cut).elim empty (absurd nameable)
  have given := resolvedName_ne_nil named kept network opts.fold
  refine wp_append_filed coherent rfl (fun _ opens => ?_) (fun _ _ opens => ?_) ?_
  · exact ⟨opens.coherent, opens.named named given⟩
  · exact ⟨opens.coherent, opens.named named given⟩
  intro reached buffer db archived opens _ committed last only
  obtain ⟨_, buffers, keeps⟩ := committed.appended.buffers
  have written := opens.coherent.appended committed.appended
  refine ⟨⟨fun cached => ?_, fun cached => ?_⟩, fun row member => ?_⟩
  · rw [only.db]
    exact written.networks (only.networks ▸ cached)
  · rw [only.db]
    exact written.buffers (only.buffers ▸ cached)
  · rw [only.db] at member
    obtain ⟨old, held, rfl⟩ := mem_map.mp (buffers ▸ member)
    rw [(keeps old).2.2]
    exact opens.named named given old held

inductive Appends (store : Store) : Store → Prop
  | append (fault vetoFault : Fault) (now : Int) (network target : Bytes) (message : Message)
      (opts : AppendOpts) (nameable : Nameable target) :
      Appends store (final (append fault vetoFault now network target message opts) store)

/-- Appends whose targets are not cut to nothing never create a buffer without a name. -/
theorem no_nameless_buffer {start : Store} (opened : start.Opened) (named : start.db.Named)
    (reached : ReflTransGen Appends start store) : store.db.Named := by
  have kept : store.Coherent ∧ store.db.Named := by
    induction reached with
    | refl =>
      have cached : Cached (fun _ _ _ => True) start := Cached.opened opened
      exact ⟨cached.coherent, named⟩
    | tail _ step ih =>
      obtain ⟨coherent, named⟩ := ih
      cases step with
      | append fault vetoFault now network _ message opts nameable =>
        have appended :=
          append_named coherent named nameable fault vetoFault now network message opts
        exact wp_final appended
  exact kept.2

theorem named_channel :
    (final (append noFault noFault 1 (lit "net") (lit "#go") { text := lit "hi" }
      { create := true }) (fresh 2 1024)).db.Named :=
  no_nameless_buffer (fresh_opened (by decide) 1024) nofun
    (ReflTransGen.single (Appends.append noFault noFault 1 (lit "net") (lit "#go") _ _
      (.inl (by decide))))

/-- The first 512 bytes of this target are continuation bytes. Nothing of it is left, and the row is
in a buffer without a name. -/
theorem nameless_buffer :
    ¬(final (append noFault noFault 1 (lit "net") (replicate 513 0x80)
      { text := lit "hi" } { create := true }) (fresh 2 1024)).db.Named := by
  intro named
  have row : ∃ row ∈ (final (append noFault noFault 1 (lit "net") (replicate 513 0x80)
      { text := lit "hi" } { create := true }) (fresh 2 1024)).db.buffers, row.name = [] := by
    decide +kernel
  obtain ⟨row, member, nameless⟩ := row
  exact named row member nameless

end Ircthing.Store
