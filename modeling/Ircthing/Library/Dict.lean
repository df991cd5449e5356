/-
This file adds to Mathlib's association lists what finite maps of a program need beyond
insertion and removal of one key: keeping the entries that satisfy a test, rewriting every
value, lookup rules that say in one equation what an update does at every key, and the total of
a weight over all entries with how each update changes it.
-/

import Mathlib.Algebra.BigOperators.Group.List.Basic
import Mathlib.Algebra.Order.BigOperators.Group.List
import Mathlib.Algebra.Order.Group.Int
import Mathlib.Data.List.AList

namespace Ircthing.Library

open List Option Function AList

abbrev Dict (Key Value : Type) := AList fun _ : Key => Value

namespace Dict

variable {Key Value : Type} [DecidableEq Key] {dict : Dict Key Value} {key : Key}
  {weight : Key → Value → Int} {value : Value}
variable {Other : Type} (dict) (key other)

theorem lookup_insert_eq (value : Value) :
    (AList.insert key value dict).lookup other =
      if other = key then some value else dict.lookup other := by
  split
  next same =>
    rw [same, lookup_insert]
  next different =>
    rw [lookup_insert_ne different]

theorem lookup_erase_eq :
    (AList.erase key dict).lookup other = if other = key then none else dict.lookup other := by
  split
  next same =>
    rw [same, lookup_erase]
  next different =>
    rw [lookup_erase_ne different]

variable (test : Key → Value → Bool)

def keep (dict : Dict Key Value) : Dict Key Value where
  entries := dict.entries.filter fun entry => test entry.1 entry.2
  nodupKeys := NodupKeys.sublist filter_sublist dict.nodupKeys

theorem lookup_keep (dict : Dict Key Value) (key : Key) :
    (dict.keep test).lookup key = (dict.lookup key).filter (test key) := by
  refine ext fun value => ?_
  rw [← mem_def, mem_lookup_iff, filter_eq_some_iff, ← mem_def, mem_lookup_iff, keep, mem_filter]

variable (rewrite : Value → Value)

def mapValues (dict : Dict Key Value) : Dict Key Value where
  entries := dict.entries.map (Sigma.map id fun _ => rewrite)
  nodupKeys := NodupKeys.map₂ (fun _ => rewrite) dict.entries dict.nodupKeys

theorem lookup_mapValues (dict : Dict Key Value) (key : Key) :
    (dict.mapValues rewrite).lookup key = (dict.lookup key).map rewrite :=
  dlookup_map₂ key

variable (rewrite : Key → Value → Value) {key other}

/-- Every value rewritten by a function that also sees its key. The order of the entries stays. -/
def mapEntries (dict : Dict Key Value) : Dict Key Value where
  entries := dict.entries.map (Sigma.map id rewrite)
  nodupKeys := NodupKeys.map₂ rewrite dict.entries dict.nodupKeys

theorem lookup_mapEntries (dict : Dict Key Value) (key : Key) :
    (dict.mapEntries rewrite).lookup key = (dict.lookup key).map (rewrite key) :=
  dlookup_map₂ key

/-! ### Loops -/

theorem lookup_foldl_erase (keys : List Key) (dict : Dict Key Value) (other : Key) :
    (other ∈ keys → (keys.foldl (fun dict key => AList.erase key dict) dict).lookup other = none) ∧
      (other ∉ keys → (keys.foldl (fun dict key => AList.erase key dict) dict).lookup other =
          dict.lookup other) := by
  induction keys generalizing dict with
  | nil => exact ⟨nofun, fun _ => rfl⟩
  | cons key keys ih =>
    obtain ⟨gone, stays⟩ := ih (dict.erase key)
    rw [foldl_cons, mem_cons, not_or]
    refine ⟨fun listed => ?_, fun free => ?_⟩
    · by_cases later : other ∈ keys
      · exact gone later
      · rw [stays later, lookup_erase_eq, if_pos (listed.resolve_right later)]
    · rw [stays free.2, lookup_erase_eq, if_neg free.1]

theorem lookup_foldl_insert (value : Key → Value) (keys : List Key) (dict : Dict Key Value)
    (other : Key) :
    (other ∈ keys →
        (keys.foldl (fun dict key => AList.insert key (value key) dict) dict).lookup other =
          some (value other)) ∧
      (other ∉ keys →
        (keys.foldl (fun dict key => AList.insert key (value key) dict) dict).lookup other =
          dict.lookup other) := by
  induction keys generalizing dict with
  | nil => exact ⟨nofun, fun _ => rfl⟩
  | cons key keys ih =>
    obtain ⟨set, stays⟩ := ih (dict.insert key (value key))
    rw [foldl_cons, mem_cons, not_or]
    refine ⟨fun listed => ?_, fun free => ?_⟩
    · by_cases later : other ∈ keys
      · exact set later
      · obtain rfl := listed.resolve_right later
        rw [stays later, lookup_insert]
    · rw [stays free.2, lookup_insert_eq, if_neg free.1]

structure Iteration (Key : Type) where
  order : List Key → List Key
  perm : ∀ keys, (order keys).Perm keys

def Iteration.plain {Key : Type} : Iteration Key := ⟨id, Perm.refl⟩

def modify (key : Key) (rewrite : Value → Value) (dict : Dict Key Value) : Dict Key Value :=
  dict.mapEntries fun other value => if other = key then rewrite value else value

theorem lookup_modify (key other : Key) (rewrite : Value → Value) (dict : Dict Key Value) :
    (dict.modify key rewrite).lookup other =
      if other = key then (dict.lookup other).map rewrite else dict.lookup other := by
  rw [modify, lookup_mapEntries]
  split
  · rfl
  · exact map_id'

variable {dict}

theorem lookup_of_mem (member : ⟨key, value⟩ ∈ dict.entries) : dict.lookup key = some value :=
  mem_dlookup dict.nodupKeys member

theorem mem_of_lookup (found : dict.lookup key = some value) : ⟨key, value⟩ ∈ dict.entries :=
  of_mem_dlookup found

theorem filter_entries_key {test : Key → Bool} (passes : test key = true)
    (only : ∀ other value, dict.lookup other = some value → test other = true → other = key) :
    dict.entries.filter (fun entry => test entry.1) =
      ((dict.lookup key).map fun value => (⟨key, value⟩ : Sigma fun _ : Key => Value)).toList := by
  have entry_eq : ∀ entry ∈ dict.entries, test entry.1 = true →
      entry.1 = key ∧ dict.lookup key = some entry.2 := by
    rintro ⟨other, value⟩ member tested
    have found := lookup_of_mem member
    obtain rfl := only other value found tested
    exact ⟨rfl, found⟩
  cases found : dict.lookup key with
  | none =>
    refine filter_eq_nil_iff.mpr fun entry member tested => ?_
    rw [(entry_eq entry member tested).2] at found
    cases found
  | some =>
    refine perm_singleton.mp ((perm_ext_iff_of_nodup
      (dict.nodupKeys.nodup.filter _) (nodup_singleton _)).mpr fun entry => ?_)
    rw [mem_filter, mem_singleton]
    constructor
    · rintro ⟨member, tested⟩
      obtain ⟨same, held⟩ := entry_eq entry member tested
      rw [found] at held
      rcases entry with ⟨other, _⟩
      obtain rfl : other = key := same
      rw [some.inj held]
    · rintro rfl
      exact ⟨mem_of_lookup found, passes⟩

/-! ### Rewrites that agree -/

theorem mapEntries_congr {first second : Key → Value → Value}
    (agree : ∀ key value, dict.lookup key = some value → first key value = second key value) :
    dict.mapEntries first = dict.mapEntries second := by
  refine AList.ext (map_congr_left fun entry member => ?_)
  show (⟨entry.1, first entry.1 entry.2⟩ : Sigma fun _ : Key => Value) =
    ⟨entry.1, second entry.1 entry.2⟩
  rw [agree entry.1 entry.2 (lookup_of_mem member)]

omit [DecidableEq Key] in
theorem mapEntries_mapEntries (first second : Key → Value → Value) (dict : Dict Key Value) :
    (dict.mapEntries first).mapEntries second =
      dict.mapEntries fun key value => second key (first key value) :=
  AList.ext (map_map ..)

theorem mapEntries_eq_self {rewrite : Key → Value → Value}
    (fixed : ∀ key value, dict.lookup key = some value → rewrite key value = value) :
    dict.mapEntries rewrite = dict := by
  refine AList.ext ((map_congr_left fun entry member => ?_).trans (map_id _))
  show (⟨entry.1, rewrite entry.1 entry.2⟩ : Sigma fun _ : Key => Value) = entry
  rw [fixed entry.1 entry.2 (lookup_of_mem member)]

theorem erase_mapEntries (dict : Dict Key Value) (key : Key) :
    (dict.mapEntries rewrite).erase key = mapEntries rewrite (dict.erase key) :=
  AList.ext (eraseP_map ..)

theorem mapEntries_insert (dict : Dict Key Value) (key : Key) (value : Value) :
    mapEntries rewrite (dict.insert key value) =
      AList.insert key (rewrite key value) (dict.mapEntries rewrite) := by
  have erased := congrArg AList.entries (erase_mapEntries rewrite dict key)
  refine AList.ext ?_
  exact congrArg (cons _) erased.symm

/-! ### Reading -/

section Read

variable {Result : Type} {default : Result} {view : Value → Result} {dict : Dict Key Value}
  {key : Key} {value : Value}

def read (default : Result) (view : Value → Result) (dict : Dict Key Value) (key : Key) : Result :=
  (dict.lookup key).elim default view

theorem read_of_lookup (found : dict.lookup key = some value) :
    read default view dict key = view value := by
  rw [read, found]
  rfl

theorem read_of_absent (absent : dict.lookup key = none) :
    read default view dict key = default := by
  rw [read, absent]
  rfl

theorem read_insert :
    read default view (dict.insert key value) =
      update (read default view dict) key (view value) := by
  funext other
  rw [read, lookup_insert_eq, update_apply]
  split <;> rfl

theorem read_insert_same (same : view value = read default view dict key) :
    read default view (dict.insert key value) = read default view dict := by
  rw [read_insert, same, update_eq_self]

end Read

/-! ### Totals -/

variable (weight)

def total (dict : Dict Key Value) : Int :=
  (dict.entries.map fun entry => weight entry.1 entry.2).foldr (· + ·) 0

def weightAt (dict : Dict Key Value) (key : Key) : Int :=
  (dict.lookup key).elim 0 (weight key)

omit [DecidableEq Key] in
@[simp] theorem total_empty (weight : Key → Value → Int) :
    total weight (∅ : Dict Key Value) = 0 := rfl

omit [DecidableEq Key] in
@[simp] theorem total_zero (dict : Dict Key Value) : total (fun _ _ => 0) dict = 0 :=
  sum_eq_zero fun _ member => by
    obtain ⟨_, -, rfl⟩ := mem_map.mp member
    rfl

theorem total_erase (dict : Dict Key Value) (key : Key) :
    total weight (dict.erase key) = total weight dict - dict.weightAt weight key := by
  unfold weightAt
  cases found : dict.lookup key with
  | none =>
    have absent : key ∉ dict.entries.keys := lookup_eq_none.mp found
    show ((dict.entries.kerase key).map _).sum = _
    rw [kerase_of_notMem_keys absent]
    exact (sub_zero _).symm
  | some value =>
    have present : key ∈ dict.entries.keys :=
      lookup_isSome.mp (by rw [found]; rfl)
    obtain ⟨held, _, _, -, split, erased⟩ := exists_of_kerase present
    have same : held = value := by
      have member : (⟨key, held⟩ : Sigma fun _ : Key => Value) ∈ dict.entries := by
        rw [split]
        simp
      rw [lookup_of_mem member] at found
      exact some.inj found
    show ((dict.entries.kerase key).map _).sum = (dict.entries.map _).sum - _
    rw [erased, split, same]
    simp only [map_append, map_cons, sum_append, sum_cons, elim_some]
    omega

theorem total_insert (dict : Dict Key Value) (key : Key) (value : Value) :
    total weight (dict.insert key value) =
      total weight dict - dict.weightAt weight key + weight key value := by
  rw [← total_erase]
  show weight key value + ((dict.entries.kerase key).map _).sum =
    ((dict.entries.kerase key).map _).sum + _
  omega

omit [DecidableEq Key] in
theorem total_mapValues (weight : Key → Value → Int) (rewrite : Value → Value)
    (dict : Dict Key Value) :
    total weight (dict.mapValues rewrite) =
      total (fun key value => weight key (rewrite value)) dict := by
  unfold total mapValues
  rw [List.map_map]
  rfl

omit [DecidableEq Key] in
theorem total_mapEntries (weight : Key → Value → Int) (rewrite : Key → Value → Value)
    (dict : Dict Key Value) :
    total weight (dict.mapEntries rewrite) =
      total (fun key value => weight key (rewrite key value)) dict := by
  unfold total mapEntries
  rw [List.map_map]
  rfl

omit [DecidableEq Key] in
theorem total_add (first second : Key → Value → Int) (dict : Dict Key Value) :
    total (fun key value => first key value + second key value) dict =
      total first dict + total second dict :=
  sum_map_add ..

theorem total_mono {lighter heavier : Key → Value → Int}
    (each : ∀ key value, dict.lookup key = some value → lighter key value ≤ heavier key value) :
    total lighter dict ≤ total heavier dict := by
  refine sum_le_sum fun entry member => each entry.1 entry.2 (lookup_of_mem member)

theorem total_congr_weight {first second : Key → Value → Int}
    (same : ∀ key value, dict.lookup key = some value → first key value = second key value) :
    total first dict = total second dict :=
  le_antisymm (total_mono fun key value found => (same key value found).le)
    (total_mono fun key value found => (same key value found).ge)

variable {weight}

theorem total_congr {first second : Dict Key Value}
    (same : ∀ key, first.lookup key = second.lookup key) :
    total weight first = total weight second := by
  have permuted : first.entries.Perm second.entries :=
    (perm_ext_iff_of_nodup first.nodupKeys.nodup second.nodupKeys.nodup).mpr fun entry => by
      rw [← mem_lookup_iff, ← mem_lookup_iff, same]
  exact (permuted.map _).sum_eq

theorem total_modify (weight : Key → Value → Int) (found : dict.lookup key = some value)
    (rewrite : Value → Value) :
    total weight (dict.modify key rewrite) =
      total weight dict - weight key value + weight key (rewrite value) := by
  have inserted : total weight (dict.modify key rewrite) =
      total weight (dict.insert key (rewrite value)) := total_congr fun other => by
    rw [lookup_modify, lookup_insert_eq]
    split
    next same =>
      rw [same, found]
      rfl
    · rfl
  rw [inserted, total_insert, weightAt, found]
  rfl

theorem total_nonneg (each : ∀ key value, dict.lookup key = some value → 0 ≤ weight key value) :
    0 ≤ total weight dict := by
  refine sum_nonneg fun entry member => ?_
  obtain ⟨⟨key, value⟩, held, rfl⟩ := mem_map.mp member
  exact each key value (lookup_of_mem held)

theorem weightAt_le_total (each : ∀ key value, dict.lookup key = some value → 0 ≤ weight key value)
    (key : Key) : dict.weightAt weight key ≤ total weight dict := by
  have rest : 0 ≤ total weight (dict.erase key) := total_nonneg fun other value found => by
    rw [lookup_erase_eq] at found
    split at found
    · cases found
    · exact each other value found
  rw [total_erase] at rest
  omega

theorem total_weightAt_le (dict : Dict Key Other)
    (whole : Dict Key Value) (nonneg : ∀ key value, 0 ≤ weight key value) :
    total (fun key _ => whole.weightAt weight key) dict ≤ total weight whole := by
  induction dict using AList.insertRec generalizing whole with
  | H0 => exact total_nonneg fun key value _ => nonneg key value
  | IH key value rest fresh ih =>
    have missing : rest.lookup key = none := lookup_eq_none.mpr fresh
    -- without the entry of the key the others are still among the entries of the whole
    have others := ih (whole.erase key)
    have same : total (fun key _ => whole.weightAt weight key) rest =
        total (fun other _ => weightAt weight (whole.erase key) other) rest := by
      refine total_congr_weight fun other held found => ?_
      have different : other ≠ key := fun same => by
        rw [same, missing] at found
        cases found
      show (whole.lookup other).elim 0 _ = ((whole.erase key).lookup other).elim 0 _
      rw [lookup_erase_ne different]
    rw [total_insert, weightAt, missing, same]
    rw [total_erase] at others
    show _ - 0 + whole.weightAt weight key ≤ _
    omega

theorem total_total {Held : Type} (weight : Key → Value → Other → Held → Int)
    (dict : Dict Key Value) (others : Dict Other Held) :
    total (fun key value => total (weight key value) others) dict =
      total (fun other held => total (fun key value => weight key value other held) dict)
        others := by
  induction dict using AList.insertRec with
  | H0 => exact (total_zero others).symm
  | IH key value rest absent ih =>
    have missing : rest.lookup key = none := lookup_eq_none.mpr absent
    have split : ∀ weight : Key → Value → Int,
        total weight (rest.insert key value) = total weight rest + weight key value := by
      intro weight
      rw [total_insert, weightAt, missing]
      exact congrArg (· + _) (Int.sub_zero _)
    simp only [split, ih, total_add]

theorem total_single (found : (dict.lookup key).isSome)
    (amount : Int) : total (fun other _ => if key = other then amount else 0) dict = amount := by
  obtain ⟨value, found⟩ := isSome_iff_exists.mp found
  have others : total (fun other _ => if key = other then amount else 0) (dict.erase key) = 0 := by
    refine (total_congr_weight fun other value held => ?_).trans (total_zero _)
    rw [lookup_erase_eq] at held
    split at held
    · cases held
    next different =>
      exact if_neg fun same => different same.symm
  rw [total_erase, weightAt, found, elim_some, if_pos rfl] at others
  omega

def size (dict : Dict Key Value) : Nat := dict.entries.length

omit [DecidableEq Key] in
theorem size_eq_total (dict : Dict Key Value) : (dict.size : Int) = total (fun _ _ => 1) dict := by
  unfold size total
  induction dict.entries with
  | nil => rfl
  | cons _ _ ih =>
    rw [length_cons, map_cons, foldr_cons, ← ih]
    dsimp only
    omega

theorem size_insert (dict : Dict Key Value) (key : Key) (value : Value) :
    (size (dict.insert key value) : Int) =
      dict.size + if (dict.lookup key).isSome then 0 else 1 := by
  rw [size_eq_total, total_insert, weightAt, ← size_eq_total]
  cases dict.lookup key with
  | none => exact congrArg (· + 1) (Int.sub_zero _)
  | some => exact (Int.sub_add_cancel _ _).trans (Int.add_zero _).symm

theorem size_erase (dict : Dict Key Value) (key : Key) :
    (size (dict.erase key) : Int) = dict.size - if (dict.lookup key).isSome then 1 else 0 := by
  rw [size_eq_total, total_erase, weightAt, ← size_eq_total]
  cases dict.lookup key <;> rfl

omit [DecidableEq Key] in
theorem size_eq_length_keys (dict : Dict Key Value) : dict.size = dict.keys.length :=
  (length_map ..).symm

theorem size_eq_of_isSome {other : Dict Key Other}
    (same : ∀ key, (dict.lookup key).isSome = (other.lookup key).isSome) :
    dict.size = other.size := by
  have keys : dict.keys.Perm other.keys := by
    refine (perm_ext_iff_of_nodup dict.keys_nodup other.keys_nodup).mpr fun key => ?_
    rw [← AList.mem_keys, ← AList.mem_keys, ← lookup_isSome, ← lookup_isSome, same]
  rw [size_eq_length_keys, size_eq_length_keys, keys.length_eq]

omit [DecidableEq Key] in
theorem size_le_length {keys : List Key} (within : dict.keys ⊆ keys) :
    dict.size ≤ keys.length := by
  rw [size_eq_length_keys]
  exact (subperm_of_subset dict.keys_nodup within).length_le

omit [DecidableEq Key] in
@[simp] theorem size_mapValues (rewrite : Value → Value) (dict : Dict Key Value) :
    (dict.mapValues rewrite).size = dict.size := length_map ..

omit [DecidableEq Key] in
@[simp] theorem size_mapEntries (rewrite : Key → Value → Value) (dict : Dict Key Value) :
    (dict.mapEntries rewrite).size = dict.size := length_map ..

@[simp] theorem size_modify (key : Key) (rewrite : Value → Value) (dict : Dict Key Value) :
    (dict.modify key rewrite).size = dict.size := size_mapEntries ..

end Dict

end Ircthing.Library
