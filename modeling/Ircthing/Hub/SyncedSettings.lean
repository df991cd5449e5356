/-
This file models the rename map of the synced settings, which leads from the names networks had to
the names they have.
-/

import Ircthing.Golang.Strings
import Ircthing.Library.Dict

namespace Ircthing.Hub

open Library Dict

/-! ### The rename map -/

def maxNetworkRenames : Nat := 128

variable (m : Dict Bytes Bytes)

def foldRenameMap (oldName newName : Bytes) : Dict Bytes Bytes :=
  let moved := mapValues (fun v => if v = oldName then newName else v) m
  let freed : Dict Bytes Bytes := moved.erase newName
  -- at saturation only the current mapping is kept
  let kept := if freed.size ≥ maxNetworkRenames then ∅ else freed
  kept.insert oldName newName

/-- `computeNameClearWrites`, of the decoded map: the map without the name, where it is a key. -/
def computeNameClearWrites (name : Bytes) : Option (Dict Bytes Bytes) :=
  if (m.lookup name).isSome then some (m.erase name) else none

def resolveRenamed (name : Bytes) : Bytes := (m.lookup name).getD name

/-! ### What a rename does to the map -/

variable {m : Dict Bytes Bytes} {oldName newName name : Bytes}

theorem lookup_foldRenameMap (room : m.size < maxNetworkRenames) :
    (foldRenameMap m oldName newName).lookup name = if name = oldName then some newName
      else if name = newName then none
      else (m.lookup name).map fun v => if v = oldName then newName else v := by
  have freed : ¬ size ((mapValues (fun v => if v = oldName then newName else v) m).erase
      newName) ≥ maxNetworkRenames := by
    have erased := size_erase
      (mapValues (fun v => if v = oldName then newName else v) m) newName
    rw [size_mapValues] at erased
    split at erased <;> omega
  unfold foldRenameMap
  dsimp only
  rw [if_neg freed, lookup_insert_eq, lookup_erase_eq, lookup_mapValues]

theorem computeNameClearWrites_of_absent (absent : m.lookup name = none) :
    computeNameClearWrites m name = none := by
  unfold computeNameClearWrites
  rw [absent]
  rfl

theorem lookup_computeNameClearWrites :
    ((computeNameClearWrites m newName).getD m).lookup name =
      if name = newName then none else m.lookup name := by
  unfold computeNameClearWrites
  split
  next => exact lookup_erase_eq m newName name
  next absent =>
    split
    next same => exact same ▸ Option.not_isSome_iff_eq_none.mp absent
    next => rfl

end Ircthing.Hub
