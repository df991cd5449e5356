/-
This file compares the table of mode letters of `applyChannelMode` with the lookups it stands for.
-/

import Ircthing.Irc.ISupport
import Mathlib.Data.List.Basic

namespace Ircthing.Irc

open Library List Option Function

namespace ISupport

/-! ### The table -/

structure ModeClassifier where
  modeClass : UInt8 → ModeClass
  sym : UInt8 → UInt8

/-- The loop of `modeClassifier` over the status modes. -/
def statusLoop (mc : ModeClassifier) : Bytes → Bytes → ModeClassifier
  | [], _ => mc
  | mode :: modes, [] =>
    statusLoop { mc with modeClass := update mc.modeClass mode .status } modes []
  | mode :: modes, symbol :: symbols =>
    statusLoop ⟨update mc.modeClass mode .status, update mc.sym mode symbol⟩ modes
      symbols

def groupClass : Nat → ModeClass
  | 0 => .list
  | 1 => .always
  | 2 => .whenSet
  | _ => .never

def classify (index : Nat) (mc : ModeClassifier) (mode : UInt8) : ModeClassifier :=
  if mc.modeClass mode = .unknown then
    { mc with modeClass := update mc.modeClass mode (groupClass index) }
  else mc

def modeClassifier (isup : ISupport) : ModeClassifier :=
  isup.chanModes.zipIdx.foldl (fun mc group => group.1.foldl (classify group.2) mc)
    (statusLoop ⟨fun _ => .unknown, fun _ => 0⟩ isup.prefixModes isup.prefixSymbols)

/-- `SymbolForMode`. -/
def symbolForModeText (isup : ISupport) (mode : UInt8) : Bytes :=
  (isup.prefixModes.findIdx? (· == mode)).elim [] fun index =>
    encodeRune (isup.prefixSymbols.getD index 0).toNat

def TableAgrees (isup : ISupport) : Prop :=
  ∀ mode, isup.modeClassifier.modeClass mode = isup.chanModeType mode ∧
    (isup.chanModeType mode = .status →
      encodeRune (isup.modeClassifier.sym mode).toNat = isup.symbolForModeText mode)

def statusPairs (isup : ISupport) : List (UInt8 × UInt8) := isup.prefixModes.zip isup.prefixSymbols

def FirstIsLast (isup : ISupport) : Prop :=
  ∀ mode, (isup.statusPairs.find? fun pair => pair.1 = mode) =
    isup.statusPairs.reverse.find? fun pair => pair.1 = mode

def Paired (isup : ISupport) : Prop := isup.prefixModes.length = isup.prefixSymbols.length

/-! ### What is in it -/

variable {mc : ModeClassifier} {isup : ISupport} {mode : UInt8}

theorem modeClass_statusLoop (modes symbols : Bytes) :
    (statusLoop mc modes symbols).modeClass mode =
      if mode ∈ modes then .status else mc.modeClass mode := by
  induction modes generalizing mc symbols with
  | nil => simp [statusLoop]
  | cons _ _ ih =>
    cases symbols <;> simp only [statusLoop, ih, update_apply] <;> grind

theorem sym_statusLoop {modes symbols : Bytes} (paired : modes.length = symbols.length) :
    (statusLoop mc modes symbols).sym mode =
      ((modes.zip symbols).reverse.find? fun pair => pair.1 = mode).elim (mc.sym mode) (·.2) := by
  induction modes generalizing mc symbols with
  | nil => simp [statusLoop]
  | cons first modes ih =>
    cases symbols with
    | nil => cases paired
    | cons _ symbols =>
      rw [statusLoop, ih (Nat.succ.inj paired), zip_cons_cons, reverse_cons, find?_append]
      cases (modes.zip symbols).reverse.find? fun pair => pair.1 = mode with
      | some => rfl
      | none => by_cases same : mode = first <;> simp [same, Ne.symm, eq_comm]

theorem groupClass_ne_unknown (index : Nat) : groupClass index ≠ .unknown := by
  unfold groupClass
  split <;> nofun

theorem modeClass_classify (group : Bytes) (index : Nat) :
    (group.foldl (classify index) mc).modeClass mode =
      if mc.modeClass mode = .unknown ∧ mode ∈ group then groupClass index
      else mc.modeClass mode := by
  have known := groupClass_ne_unknown index
  induction group generalizing mc with
  | nil => simp
  | cons _ _ ih =>
    rw [foldl_cons, ih, classify]
    split
    · simp only [update_apply]
      grind
    · grind

theorem modeClass_groups (groups : List Bytes) (start : Nat) :
    ((groups.zipIdx start).foldl (fun mc group => group.1.foldl (classify group.2) mc)
        mc).modeClass mode =
      if mc.modeClass mode = .unknown then
        (groups.findIdx? fun group => group.contains mode).elim .unknown fun index =>
          groupClass (start + index)
      else mc.modeClass mode := by
  induction groups generalizing mc start with
  | nil => simp
  | cons group _ ih =>
    rw [zipIdx_cons, foldl_cons, ih, modeClass_classify, findIdx?_cons]
    have known := groupClass_ne_unknown start
    by_cases unknown : mc.modeClass mode = .unknown
    · by_cases inside : mode ∈ group
      · simp [unknown, inside, known]
      · simp [unknown, inside, elim_map, comp_def, Nat.add_assoc, Nat.add_comm 1]
    · simp [unknown]

theorem sym_groups (groups : List (Bytes × Nat)) :
    (groups.foldl (fun mc group => group.1.foldl (classify group.2) mc) mc).sym = mc.sym := by
  have classified : ∀ (group : Bytes) (index : Nat) (mc : ModeClassifier),
      (group.foldl (classify index) mc).sym = mc.sym := by
    intro group index
    induction group with
    | nil => exact fun _ => rfl
    | cons _ _ ih =>
      intro mc
      rw [foldl_cons, ih, classify]
      split <;> rfl
  induction groups generalizing mc with
  | nil => rfl
  | cons _ _ ih =>
    rw [foldl_cons, ih, classified]

theorem modeClass_modeClassifier : isup.modeClassifier.modeClass mode = isup.chanModeType mode := by
  unfold modeClassifier chanModeType
  rw [modeClass_groups, modeClass_statusLoop]
  by_cases status : mode ∈ isup.prefixModes
  · simp [status]
  · cases isup.chanModes.findIdx? fun group => group.contains mode with
    | none => simp [status]
    | some index => rcases index with _ | _ | _ | index <;> simp [status, groupClass]

theorem sym_modeClassifier (paired : isup.Paired) :
    isup.modeClassifier.sym mode = isup.symbolForMode mode := by
  unfold modeClassifier symbolForMode
  rw [sym_groups, sym_statusLoop paired]
  cases (isup.prefixModes.zip isup.prefixSymbols).reverse.find? fun pair => pair.1 = mode <;> rfl

theorem map_findIdx? {modes symbols : Bytes} (paired : modes.length = symbols.length) :
    (modes.findIdx? (· == mode)).map (symbols.getD · 0) =
      ((modes.zip symbols).find? fun pair => pair.1 = mode).map (·.2) := by
  induction modes generalizing symbols with
  | nil => rfl
  | cons first _ ih =>
    cases symbols with
    | nil => cases paired
    | cons =>
      have later := ih (Nat.succ.inj paired)
      by_cases same : first = mode
      · simp [same, findIdx?_cons]
      · simpa [same, findIdx?_cons, comp_def] using later

/-! ### Agreement -/

theorem encodeRune_injective {first second : UInt8}
    (same : encodeRune first.toNat = encodeRune second.toNat) : first = second := by
  have decoded : ∀ code < 256, (decodeRune (encodeRune code)).1 = code := by decide +kernel
  refine UInt8.toNat_inj.mp ?_
  rw [← decoded _ first.toNat_lt, same, decoded _ second.toNat_lt]

theorem tableAgrees_iff (paired : isup.Paired) : isup.TableAgrees ↔ isup.FirstIsLast := by
  refine forall_congr' fun mode => ?_
  have lookup : (isup.prefixModes.findIdx? (· == mode)).map (isup.prefixSymbols.getD · 0) =
      (isup.statusPairs.find? fun pair => pair.1 = mode).map (·.2) := map_findIdx? paired
  have status : isup.chanModeType mode = .status ↔ mode ∈ isup.prefixModes := by
    unfold chanModeType
    repeat' split
    all_goals simp_all
  have text : isup.symbolForModeText mode =
      ((isup.statusPairs.find? fun pair => pair.1 = mode).map (·.2)).elim [] fun symbol =>
        encodeRune symbol.toNat := by
    rw [← lookup, elim_map]
    rfl
  have table : isup.symbolForMode mode =
      ((isup.statusPairs.reverse.find? fun pair => pair.1 = mode).map (·.2)).getD 0 := rfl
  rw [modeClass_modeClassifier, sym_modeClassifier paired, text, table, status]
  cases first : isup.statusPairs.find? fun pair => pair.1 = mode with
  | none =>
    have absent : mode ∉ isup.prefixModes := by
      rw [first, map_none, map_eq_none_iff, findIdx?_eq_none_iff] at lookup
      exact fun member => by simpa using lookup mode member
    have last : (isup.statusPairs.reverse.find? fun pair => pair.1 = mode) = none := by
      simpa using first
    simp [absent, last]
  | some pair =>
    have here : pair.1 = mode := by simpa using find?_some first
    have member := mem_of_find?_eq_some first
    obtain ⟨other, last⟩ : ∃ other,
        (isup.statusPairs.reverse.find? fun pair => pair.1 = mode) = some other :=
      isSome_iff_exists.mp (find?_isSome.mpr ⟨pair, by simpa using member, by simpa⟩)
    have there : other.1 = mode := by simpa using find?_some last
    have listed : mode ∈ isup.prefixModes := here ▸ (of_mem_zip member).1
    simp only [last, listed, map_some, getD_some, elim_some, true_and,
      forall_const, some.injEq, Prod.ext_iff, here, there]
    exact ⟨fun same => (encodeRune_injective same).symm, fun same => same ▸ rfl⟩

theorem paired_token (paired : isup.Paired) {text : Bytes} : (isup.token text).Paired := by
  have parsed : ∀ value modes symbols, parsePrefix value = some (modes, symbols) →
      modes.length = symbols.length := by
    intro value modes symbols parses
    unfold parsePrefix at parses
    grind
  have defaults : (lit "ov").length = (lit "@+").length := rfl
  unfold Paired at paired ⊢
  unfold token applyDefault applyToken applyParsed
  repeat' split
  all_goals grind

/-- After any 005 lines the table agrees with the lookups exactly when no letter of PREFIX is listed
with one symbol first and another last. -/
theorem mode_table_agrees_iff (lines : List IrcMessage) :
    (lines.foldl handle {}).TableAgrees ↔ (lines.foldl handle {}).FirstIsLast := by
  refine tableAgrees_iff (foldlRecOn (motive := Paired) lines handle rfl ?_)
  intro isup paired line _
  unfold handle
  split
  · exact paired
  · exact foldlRecOn (motive := Paired) _ _ paired fun _ paired text _ =>
      paired_token paired

/-- A letter with two symbols: the table has the last one, the lookup finds the first. -/
theorem repeated_letter_disagrees :
    (handle {} (newMsg "005" [lit "me", lit "PREFIX=(oo)@+", lit "ok"])).modeClassifier.sym 0x6F =
        0x2B ∧
      (handle {} (newMsg "005" [lit "me", lit "PREFIX=(oo)@+", lit "ok"])).symbolForModeText 0x6F =
        lit "@" := by
  decide +kernel

end ISupport

end Ircthing.Irc
