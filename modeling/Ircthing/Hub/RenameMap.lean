/-
This file follows the rename map over every sequence of network creates, edits, renames and deletes,
next to a record of which network last held each name.
-/

import Ircthing.Hub.SyncedSettings
import Ircthing.Library.Machine

namespace Ircthing.Hub

open Library Option Dict Machine

/-! ### The names of the networks -/

structure Directory where
  /-- The names of the stored definitions, each with the network that holds it. -/
  live : Dict Bytes Nat := ∅
  /-- The rename map. -/
  renames : Dict Bytes Bytes := ∅
  /-- For the proofs: the network that held each name last. -/
  held : Dict Bytes Nat := ∅
  /-- For the proofs: how many networks were created. -/
  made : Nat := 0

/-- What `put_network` and `delete_network` are asked for. -/
inductive DirectoryAction where
  | create (name : Bytes)
  | edit (name : Bytes)
  | rename (oldName newName : Bytes)
  | delete (name : Bytes)
deriving DecidableEq

def DirectoryAction.takes : DirectoryAction → Option Bytes
  | .create name => some name
  | .edit _ => none
  | .rename _ newName => some newName
  | .delete _ => none

namespace Directory

variable {m : Dict Bytes Bytes} (directory : Directory)

/-- One successful request: `handlePutNetwork` or `handleDeleteNetwork`. -/
def step : DirectoryAction → Option Directory
  | .create name =>
    match directory.live.lookup name with
    | some _ => none
    | none => some {
        live := directory.live.insert name directory.made
        renames := (computeNameClearWrites directory.renames name).getD directory.renames
        held := directory.held.insert name directory.made
        made := directory.made + 1 }
  | .edit name =>
    match directory.live.lookup name with
    | none => none
    | some _ => some { directory with
        renames := (computeNameClearWrites directory.renames name).getD directory.renames }
  | .rename oldName newName =>
    match directory.live.lookup oldName, directory.live.lookup newName with
    | some network, none => some { directory with
        live := (directory.live.erase oldName).insert newName network
        renames := foldRenameMap directory.renames oldName newName
        held := directory.held.insert newName network }
    | _, _ => none
  -- the rename map is left as it is
  | .delete name => some { directory with live := directory.live.erase name }

def leadsTo (name : Bytes) : Bool :=
  directory.renames.entries.any fun entry => entry.2 == name

variable {directory next : Directory} {action : DirectoryAction} {name oldName newName : Bytes}
  {network : Nat}

theorem leadsTo_iff : directory.leadsTo name = true ↔
    ∃ key, directory.renames.lookup key = some name := by
  unfold leadsTo
  rw [List.any_eq_true]
  constructor
  · rintro ⟨⟨key, value⟩, listed, same⟩
    obtain rfl : value = name := beq_iff_eq.mp same
    exact ⟨key, lookup_of_mem listed⟩
  · rintro ⟨key, found⟩
    exact ⟨⟨key, name⟩, mem_of_lookup found, beq_self_eq_true name⟩

def Clear (directory : Directory) (action : DirectoryAction) : Prop :=
  directory.renames.size < maxNetworkRenames ∧ (action.takes.elim false directory.leadsTo) = false

instance : ∀ directory action, Decidable (Clear directory action) :=
  fun _ _ => inferInstanceAs (Decidable (_ ∧ _))

/-! ### What the map is for -/

structure Sound (directory : Directory) : Prop where
  /-- No value is a key. -/
  flat : ∀ {name value}, directory.renames.lookup name = some value →
    directory.renames.lookup value = none
  /-- A name that is held resolves to itself. -/
  live_self : ∀ {name network}, directory.live.lookup name = some network →
    resolveRenamed directory.renames name = name
  /-- A name whose last holder is live resolves to the holder's name. -/
  current : ∀ {name network now}, directory.held.lookup name = some network →
    directory.live.lookup now = some network → resolveRenamed directory.renames name = now
  /-- A name whose last holder was deleted resolves to a name nobody holds. -/
  gone : ∀ {name network}, directory.held.lookup name = some network →
    (∀ now, directory.live.lookup now ≠ some network) →
    directory.live.lookup (resolveRenamed directory.renames name) = none

structure Agrees (directory : Directory) : Prop where
  flat : ∀ {name value}, directory.renames.lookup name = some value →
    directory.renames.lookup value = none
  live_no_key : ∀ {name network}, directory.live.lookup name = some network →
    directory.renames.lookup name = none
  live_held : ∀ {name network}, directory.live.lookup name = some network →
    directory.held.lookup name = some network
  held_made : ∀ {name network}, directory.held.lookup name = some network → network < directory.made
  alone : ∀ {name other network}, directory.live.lookup name = some network →
    directory.live.lookup other = some network → name = other
  key_held : ∀ {name value}, directory.renames.lookup name = some value →
    ∃ network, directory.held.lookup name = some network
  moved : ∀ {name network now}, directory.held.lookup name = some network →
    directory.live.lookup now = some network → name ≠ now →
    directory.renames.lookup name = some now
  gone : ∀ {name network}, directory.held.lookup name = some network →
    (∀ now, directory.live.lookup now ≠ some network) →
    directory.live.lookup (resolveRenamed directory.renames name) = none

theorem resolve_of_lookup {value : Bytes} (found : m.lookup name = some value) :
    resolveRenamed m name = value := by
  unfold resolveRenamed
  rw [found, getD_some]

theorem resolve_of_absent (absent : m.lookup name = none) : resolveRenamed m name = name := by
  unfold resolveRenamed
  rw [absent, getD_none]

theorem Sound.resolve_twice (sound : directory.Sound) (name : Bytes) :
    resolveRenamed directory.renames (resolveRenamed directory.renames name) =
      resolveRenamed directory.renames name := by
  cases found : directory.renames.lookup name with
  | none => rw [resolve_of_absent found, resolve_of_absent found]
  | some => rw [resolve_of_lookup found, resolve_of_absent (sound.flat found)]

theorem Agrees.sound (agrees : directory.Agrees) : directory.Sound where
  flat := agrees.flat
  live_self here := resolve_of_absent (agrees.live_no_key here)
  gone := agrees.gone
  current {name network now} held here := by
    by_cases same : name = now
    · subst same
      exact resolve_of_absent (agrees.live_no_key here)
    · exact resolve_of_lookup (agrees.moved held here same)

/-! ### What a request changes -/

inductive Turn (directory : Directory) : DirectoryAction → Directory → Prop
  | create {next : Directory} (name : Bytes) (free : directory.live.lookup name = none)
      (live : ∀ other, next.live.lookup other =
        if other = name then some directory.made else directory.live.lookup other)
      (renames : ∀ other, next.renames.lookup other =
        if other = name then none else directory.renames.lookup other)
      (held : ∀ other, next.held.lookup other =
        if other = name then some directory.made else directory.held.lookup other)
      (made : next.made = directory.made + 1) : Turn directory (.create name) next
  | edit (name : Bytes) {network : Nat} (here : directory.live.lookup name = some network) :
      Turn directory (.edit name) { directory with
        renames := (computeNameClearWrites directory.renames name).getD directory.renames }
  | rename {next : Directory} (oldName newName : Bytes) {network : Nat}
      (here : directory.live.lookup oldName = some network)
      (free : directory.live.lookup newName = none)
      (live : ∀ other, next.live.lookup other = if other = newName then some network
        else if other = oldName then none else directory.live.lookup other)
      (renames : ∀ other, next.renames.lookup other = if other = oldName then some newName
        else if other = newName then none
        else (directory.renames.lookup other).map fun v => if v = oldName then newName else v)
      (held : ∀ other, next.held.lookup other =
        if other = newName then some network else directory.held.lookup other)
      (made : next.made = directory.made) : Turn directory (.rename oldName newName) next
  | delete (name : Bytes) :
      Turn directory (.delete name) { directory with live := directory.live.erase name }

theorem step_turn (room : directory.renames.size < maxNetworkRenames)
    (taken : directory.step action = some next) : Turn directory action next := by
  cases action with
  | create name =>
    dsimp only [step] at taken
    split at taken
    next => cases taken
    next free =>
      cases taken
      exact .create name free (fun other => lookup_insert_eq ..)
        (fun other => lookup_computeNameClearWrites) (fun other => lookup_insert_eq ..) rfl
  | edit name =>
    dsimp only [step] at taken
    split at taken
    next => cases taken
    next here =>
      cases taken
      exact .edit name here
  | rename oldName newName =>
    dsimp only [step] at taken
    split at taken
    next here free =>
      cases taken
      refine .rename oldName newName here free (fun other => ?_)
        (fun other => lookup_foldRenameMap room) (fun other => lookup_insert_eq ..) rfl
      rw [lookup_insert_eq, lookup_erase_eq]
    next => cases taken
  | delete name =>
    cases taken
    exact .delete name

/-! ### Requests that take no name the map leads to -/

def Untaken (directory : Directory) (action : DirectoryAction) : Prop :=
  ∀ name ∈ action.takes, ∀ key, directory.renames.lookup key ≠ some name

theorem untaken_iff : Untaken directory action ↔
    action.takes.elim false directory.leadsTo = false := by
  cases takes : action.takes with
  | none =>
    simp only [Untaken, takes, elim_none, not_mem_none, false_implies, implies_true]
  | some =>
    rw [elim_some, ← Bool.not_eq_true, leadsTo_iff, not_exists]
    simp only [Untaken, takes, mem_def, some.injEq, forall_eq']

theorem resolve_ne {other : Bytes} (different : name ≠ other) (unled : m.lookup name ≠ some other) :
    resolveRenamed m name ≠ other := by
  cases found : m.lookup name with
  | none => rwa [resolve_of_absent found]
  | some =>
    rw [resolve_of_lookup found]
    exact fun same => unled (same ▸ found)

theorem Turn.agrees (turn : Turn directory action next) (agrees : directory.Agrees)
    (untaken : Untaken directory action) : next.Agrees := by
  cases turn with
  | create name _ live renames held made =>
    have unled : ∀ key, directory.renames.lookup key ≠ some name := untaken name rfl
    have unmade : ∀ {other network}, directory.live.lookup other = some network →
        network < directory.made := fun here => agrees.held_made (agrees.live_held here)
    constructor
    case flat => grind [agrees.flat]
    case live_no_key => grind [agrees.live_no_key]
    case live_held => grind [agrees.live_held]
    case held_made => grind [agrees.held_made]
    case alone => grind [agrees.alone]
    case key_held => grind [agrees.key_held]
    case moved => grind [agrees.moved, agrees.held_made]
    case gone =>
      intro other network heldBy dead
      have different : other ≠ name := by
        rintro rfl
        grind
      have heldBefore : directory.held.lookup other = some network := by grind
      have before := agrees.gone heldBefore (by grind)
      have same : resolveRenamed next.renames other = resolveRenamed directory.renames other := by
        unfold resolveRenamed
        rw [renames, if_neg different]
      rw [same, live, if_neg (resolve_ne different (unled other)), before]
  | edit name here =>
    -- a name that is held is no key, so there was nothing to clear
    rw [computeNameClearWrites_of_absent (agrees.live_no_key here), getD_none]
    exact agrees
  | rename oldName newName here _ live renames held made =>
    have unled : ∀ key, directory.renames.lookup key ≠ some newName := untaken newName rfl
    have heldOld := agrees.live_held here
    have led : ∀ {key target}, key ≠ oldName → key ≠ newName →
        directory.renames.lookup key = some target →
        next.renames.lookup key = some (if target = oldName then newName else target) := by
      intro key target notOld notNew found
      rw [renames, if_neg notOld, if_neg notNew, found, map_some]
    have unkeyed : ∀ {key}, key ≠ oldName → directory.renames.lookup key = none →
        next.renames.lookup key = none := by
      intro key notOld absent
      rw [renames, if_neg notOld, absent, map_none, ite_self]
    constructor
    case flat =>
      intro key value found
      have freed : next.renames.lookup newName = none := by grind
      by_cases isOld : key = oldName
      · obtain rfl : newName = value := by grind
        exact freed
      · by_cases isNew : key = newName
        · grind
        · rw [renames, if_neg isOld, if_neg isNew] at found
          obtain ⟨target, leads, rfl⟩ := map_eq_some_iff.mp found
          by_cases same : target = oldName
          · rw [if_pos same]
            exact freed
          · rw [if_neg same]
            exact unkeyed same (agrees.flat leads)
    case live_no_key => grind [agrees.live_no_key]
    case live_held => grind [agrees.live_held]
    case held_made =>
      intro other holder heldBy
      rw [held] at heldBy
      rw [made]
      split_ifs at heldBy
      · cases heldBy
        exact agrees.held_made heldOld
      · exact agrees.held_made heldBy
    case alone => grind [agrees.alone]
    case key_held =>
      intro key value found
      cases before : directory.renames.lookup key with
      | some => grind [agrees.key_held]
      | none => grind
    case moved =>
      intro other holder now heldBy there different
      have notNew : other ≠ newName := by grind [agrees.alone]
      have heldBefore : directory.held.lookup other = some holder := by grind
      by_cases isNew : now = newName
      · subst isNew
        obtain rfl := some.inj (((live now).trans (if_pos rfl)).symm.trans there)
        by_cases isOld : other = oldName
        · rw [renames, if_pos isOld]
        · rw [led isOld notNew (agrees.moved heldBefore here isOld), if_pos rfl]
      · have stays : now ≠ oldName ∧ directory.live.lookup now = some holder := by grind
        have notOld : other ≠ oldName := by grind [agrees.alone]
        rw [led notOld notNew (agrees.moved heldBefore stays.2 different), if_neg stays.1]
    case gone =>
      intro other holder heldBy dead
      have notNew : other ≠ newName := by grind
      have heldBefore : directory.held.lookup other = some holder := by grind
      have notOld : other ≠ oldName := by grind
      have before := agrees.gone heldBefore (by grind)
      cases found : directory.renames.lookup other with
      | none =>
        rw [resolve_of_absent found] at before
        rw [resolve_of_absent (unkeyed notOld found)]
        grind
      | some target =>
        rw [resolve_of_lookup found] at before
        have moved : target ≠ oldName := by grind
        rw [resolve_of_lookup (led notOld notNew found)]
        grind
  | delete name =>
    have live : ∀ other, (directory.live.erase name).lookup other =
        if other = name then none else directory.live.lookup other := lookup_erase_eq _ _
    refine ⟨agrees.flat, ?_, ?_, agrees.held_made, ?_, agrees.key_held, ?_, ?_⟩ <;> dsimp only
    case refine_1 => grind [agrees.live_no_key]
    case refine_2 => grind [agrees.live_held]
    case refine_3 => grind [agrees.alone]
    case refine_4 => grind [agrees.moved]
    case refine_5 =>
      intro other holder heldBy dead
      rw [live]
      by_cases isHolder : directory.live.lookup name = some holder
      · -- the holder is the network that was deleted
        rw [agrees.sound.current heldBy isHolder, if_pos rfl]
      · rw [agrees.gone heldBy (by grind), ite_self]

theorem agrees_of_reaches {directory : Directory}
    (reached : Machine.Reaches step Clear {} directory) : directory.Agrees := by
  refine reached.invariant ?_ ?_
  · constructor <;> intros <;> simp_all
  · intro state action next agrees clear taken
    exact (step_turn clear.1 taken).agrees agrees (untaken_iff.mpr clear.2)

/-! ### Requests that take a name the map leads to -/

theorem Sound.holder_eq {key : Bytes} {holder : Nat} (sound : directory.Sound)
    (heldBy : directory.held.lookup key = some holder)
    (leads : directory.renames.lookup key = some name)
    (here : directory.live.lookup name = some network) : holder = network := by
  by_cases alive : ∃ now, directory.live.lookup now = some holder
  · obtain ⟨now, there⟩ := alive
    obtain rfl : name = now := (resolve_of_lookup leads).symm.trans (sound.current heldBy there)
    exact some.inj (there.symm.trans here)
  · have absent := sound.gone heldBy (not_exists.mp alive)
    rw [resolve_of_lookup leads, here] at absent
    cases absent

theorem Turn.untaken (turn : Turn directory action next) (agrees : directory.Agrees)
    (sound : next.Sound) : Untaken directory action := by
  intro name takes key leads
  obtain ⟨holder, heldBy⟩ := agrees.key_held leads
  have different : key ≠ name := by
    rintro rfl
    rw [agrees.flat leads] at leads
    cases leads
  cases turn with
  | create _ _ live renames held =>
    cases takes
    have heldAfter : next.held.lookup key = some holder := by rw [held, if_neg different, heldBy]
    have leadsAfter : next.renames.lookup key = some name := by
      rw [renames, if_neg different, leads]
    have same := sound.holder_eq heldAfter leadsAfter ((live name).trans (if_pos rfl))
    exact absurd same (agrees.held_made heldBy).ne
  | edit | delete => cases takes
  | rename oldName _ here free live renames held =>
    cases takes
    have notOld : key ≠ oldName := by
      rintro rfl
      rw [agrees.live_no_key here] at leads
      cases leads
    have apart : name ≠ oldName := by
      rintro rfl
      rw [here] at free
      cases free
    have heldAfter : next.held.lookup key = some holder := by rw [held, if_neg different, heldBy]
    have leadsAfter : next.renames.lookup key = some name := by
      rw [renames, if_neg notOld, if_neg different, leads, map_some, if_neg apart]
    obtain rfl := sound.holder_eq heldAfter leadsAfter ((live name).trans (if_pos rfl))
    -- the renamed network held the key as well, so before the rename the key led to its old name
    have before := (agrees.moved heldBy here notOld).symm.trans leads
    exact apart (some.inj before).symm

/-- Over every sequence of requests that take no name the map leads to: no value is a key, a name
that is held resolves to itself, and any other name that was held to where its last holder is, or to
a free name when that network is gone. A request keeps this exactly when it takes no name the map
leads to. -/
theorem rename_map_sound (reached : Machine.Reaches step Clear {} directory) :
    (directory.Sound ∧ ∀ name,
      resolveRenamed directory.renames (resolveRenamed directory.renames name) =
        resolveRenamed directory.renames name) ∧
    ∀ action next, directory.renames.size < maxNetworkRenames → directory.step action = some next →
      (next.Sound ↔ action.takes.elim false directory.leadsTo = false) := by
  have agrees := agrees_of_reaches reached
  refine ⟨⟨agrees.sound, agrees.sound.resolve_twice⟩, fun action next room taken => ?_⟩
  have turn := step_turn room taken
  rw [← untaken_iff]
  exact ⟨turn.untaken agrees, fun untaken => (turn.agrees agrees untaken).sound⟩

private def first : Bytes := lit "A"

private def second : Bytes := lit "B"

theorem rename_map_sound_recreated :
    ∃ directory : Directory, resolveRenamed directory.renames first = first ∧
      directory.live.lookup first = some 1 ∧
      (directory.Sound ∧ ∀ name,
        resolveRenamed directory.renames (resolveRenamed directory.renames name) =
          resolveRenamed directory.renames name) := by
  have ran : (run (guarded step Clear) {} [.create first, .rename first second,
      .delete second, .create first]).map (fun directory =>
        (resolveRenamed directory.renames first, directory.live.lookup first)) =
      some (first, some 1) := by
    decide +kernel
  obtain ⟨directory, ran, facts⟩ := map_eq_some_iff.mp ran
  obtain ⟨resolves, live⟩ := Prod.ext_iff.mp facts
  exact ⟨directory, resolves, live, (rename_map_sound (reaches_run .refl ran)).1⟩

/-- A network renamed and deleted, and another created under its last name: the first name, which
only the deleted one held, resolves to the new one. -/
theorem deleted_holder_leads_to_another :
    ∃ directory : Directory, Machine.Reaches step
        (fun directory _ => directory.renames.size < maxNetworkRenames) {} directory ∧
      directory.held.lookup first = some 0 ∧
      (∀ now, directory.live.lookup now ≠ some 0) ∧
      directory.live.lookup (resolveRenamed directory.renames first) = some 1 := by
  have ran : (run (guarded step
      fun directory _ => directory.renames.size < maxNetworkRenames) {} [.create first,
        .rename first second, .delete second, .create second]).map (fun directory =>
          (directory.held.lookup first, directory.live.entries.map Sigma.snd,
            directory.live.lookup (resolveRenamed directory.renames first))) =
      some (some 0, [1], some 1) := by
    decide +kernel
  obtain ⟨directory, ran, facts⟩ := map_eq_some_iff.mp ran
  obtain ⟨held, facts⟩ := Prod.ext_iff.mp facts
  obtain ⟨live, resolves⟩ := Prod.ext_iff.mp facts
  refine ⟨directory, reaches_run .refl ran, held, fun now here => ?_, resolves⟩
  have listed : 0 ∈ directory.live.entries.map Sigma.snd :=
    List.mem_map_of_mem (f := Sigma.snd) (mem_of_lookup here)
  rw [show directory.live.entries.map Sigma.snd = [1] from live] at listed
  exact absurd listed (by decide)

end Directory

end Ircthing.Hub
