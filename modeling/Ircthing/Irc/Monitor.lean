/-
This file models the MONITOR list of a connection: the diffs that drive the list of the server
toward the stored buddy list, and the rebuild after the server has refused an addition.
-/

import Mathlib.Data.Finset.Basic
import Mathlib.Data.Finset.Lattice.Lemmas
import Mathlib.Data.Finset.SDiff
import Mathlib.Data.Int.Interval
import Ircthing.Golang.Strconv
import Ircthing.Irc.ISupport

namespace Ircthing.Irc

open Library List Option Dict

variable {desired : List Bytes} {sign : String} {nick key : Bytes} {count fuel gen : Nat}

/-! ### Targets -/

def maxMonitorNickLen : Nat := 48

def maxReconcileTargets : Int := 1024

def validMonitorTarget (nick : Bytes) : Bool :=
  nick ≠ [] && nick.length ≤ maxMonitorNickLen &&
    !nick.any fun byte =>
      byte == 0x20 || byte == 0x2C || byte == 0x0D || byte == 0x0A || byte == 0x00

/-- The loop of `chunkTargets`. Every group takes a target, so their number is fuel enough. -/
def targetLoop (count : Nat) : Nat → List Bytes → List (List Bytes)
  | 0, _ => []
  | _, [] => []
  | fuel + 1, targets@(_ :: _) => targets.take count :: targetLoop count fuel (targets.drop count)

def chunkTargets (targets : List Bytes) (count : Nat) : List (List Bytes) :=
  targetLoop count targets.length targets

def ISupport.monitorAdvertised (isup : ISupport) : Bool :=
  (isup.raw.lookup (lit "MONITOR")).isSome

def ISupport.monitorLimit (isup : ISupport) : Int :=
  ((isup.raw.lookup (lit "MONITOR")).bind atoi).getD 0

/-- The MONITOR state: the spelling watched for each folded nick, the limit a refusal revealed, and
the recovery from one. -/
structure Monitor where
  active : Dict Bytes Bytes := ∅
  limit734 : Int := 0
  rebuildPending : Bool := false
  recovered734 : Bool := false
  recoveredCap : Int := 0
deriving DecidableEq

variable {monitor : Monitor}

namespace Monitor

variable {key : Bytes} {chunk nicks targets desired : List Bytes} {active : Dict Bytes Bytes}
  {visit : Iteration Bytes} {limit : Int} {lines : Option (List IrcMessage)}

section Calls

variable (isup : ISupport)

/-- `effectiveMonitorLimitLocked`. -/
def effectiveMonitorLimit (monitor : Monitor) : Int :=
  if 0 < monitor.limit734 ∧ (isup.monitorLimit = 0 ∨ monitor.limit734 < isup.monitorLimit) then
    monitor.limit734
  else isup.monitorLimit

/-- `monitorTargetLimitLocked`. -/
def monitorTargetLimit (monitor : Monitor) : Int :=
  if monitor.effectiveMonitorLimit isup ≤ 0 ∨
      maxReconcileTargets < monitor.effectiveMonitorLimit isup then
    maxReconcileTargets
  else monitor.effectiveMonitorLimit isup

/-- The loop of `monitorTargetsLocked`: the folded nicks taken so far, then the nicks left. -/
def targetsLoop (limit : Nat) (taken : List Bytes) : List Bytes → List Bytes
  | [] => []
  | nick :: rest =>
    if !validMonitorTarget nick then targetsLoop limit taken rest
    else if taken.contains (isup.fold nick) then targetsLoop limit taken rest
    else if limit ≤ taken.length then []
    else nick :: targetsLoop limit (taken ++ [isup.fold nick]) rest

/-- `monitorTargetsLocked`, the spellings in their order; the set of the source holds their
folds. -/
def monitorTargets (monitor : Monitor) (desired : List Bytes) : List Bytes :=
  targetsLoop isup (monitor.monitorTargetLimit isup).toNat [] desired

def monitorLines (sign : String) (nicks : List Bytes) : List IrcMessage :=
  (chunkTargets nicks 10).map fun chunk => newMsg "MONITOR" [lit sign, join (lit ",") chunk]

/-- `m.monActive[m.isup.Fold(n)] = n` for each of the nicks. -/
def activate (active : Dict Bytes Bytes) (nicks : List Bytes) : Dict Bytes Bytes :=
  nicks.foldl (fun active nick => active.insert (isup.fold nick) nick) active

/-- `reconcileLocked`, with the lines that were enqueued; `none` when the queue refused them. -/
def reconcile (visit : Iteration Bytes) (enqueues : Bool) (desired : List Bytes)
    (monitor : Monitor) : Monitor × Option (List IrcMessage) :=
  let targets := monitor.monitorTargets isup desired
  let removed := visit.order (monitor.active.keys.filter fun key =>
    !(targets.map isup.fold).contains key)
  let added := targets.filter fun nick => (monitor.active.lookup (isup.fold nick)).isNone
  if removed = [] ∧ added = [] then (monitor, some [])
  else if enqueues then
    ({ monitor with
        active := activate isup (removed.foldl (fun active key => active.erase key) monitor.active)
          added },
      some (monitorLines "-" (removed.map fun key => (monitor.active.lookup key).getD []) ++
        monitorLines "+" added))
  else (monitor, none)

/-- `rebuildMonitoredLocked`. -/
def rebuildMonitored (enqueues : Bool) (desired : List Bytes) (monitor : Monitor) :
    Monitor × Option (List IrcMessage) :=
  let targets := monitor.monitorTargets isup desired
  if enqueues then
    ({ monitor with active := activate isup ∅ targets },
      some (newMsg "MONITOR" [lit "C"] :: monitorLines "+" targets))
  else (monitor, none)

/-- `completeMonitorRebuildLocked`. -/
def completeMonitorRebuild (enqueues : Bool) (desired : List Bytes) (monitor : Monitor) :
    Monitor × Option (List IrcMessage) :=
  match monitor.rebuildMonitored isup enqueues desired with
  | (monitor, none) => (monitor, none)
  | (monitor, some lines) =>
    ({ monitor with
        rebuildPending := false
        recovered734 := true
        recoveredCap := monitor.monitorTargetLimit isup }, some lines)

def reconcileMonitored (registered : Bool) (visit : Iteration Bytes) (enqueues : Bool)
    (desired : List Bytes) (monitor : Monitor) : Monitor × Option (List IrcMessage) :=
  if !registered || !isup.monitorAdvertised then (monitor, some [])
  else if monitor.rebuildPending then monitor.completeMonitorRebuild isup enqueues desired
  else monitor.reconcile isup visit enqueues desired

def countRefused (active : Dict Bytes Bytes) (seen : List Bytes) : List Bytes → Nat
  | [] => 0
  | nick :: rest =>
    if (active.lookup (isup.fold nick)).isSome && !seen.contains (isup.fold nick) then
      countRefused active (isup.fold nick :: seen) rest + 1
    else countRefused active seen rest

def learnedLimit (active : Dict Bytes Bytes) (nicks : List Bytes) (limit : Int) : Int :=
  if 0 < limit then limit else active.size - countRefused isup active [] nicks

/-- `MonitorRejected`, for a connection with the generation `current`. -/
def monitorRejected (current : Nat) (nicks : List Bytes) (limit : Int) (gen : Nat) (enqueues : Bool)
    (desired : List Bytes) (monitor : Monitor) : Monitor × Option (List IrcMessage) :=
  if gen ≠ current then (monitor, some [])
  else if monitor.recovered734 ∧ limit ≤ 0 then (monitor, some [])
  else
    let learned := learnedLimit isup monitor.active nicks limit
    let monitor :=
      if 0 < learned ∧ (monitor.limit734 = 0 ∨ learned < monitor.limit734) then
        { monitor with limit734 := learned }
      else monitor
    if monitor.recovered734 ∧ monitor.recoveredCap ≤ monitor.monitorTargetLimit isup then
      (monitor, some [])
    else
      ({ monitor with rebuildPending := true } : Monitor).completeMonitorRebuild isup enqueues
        desired

end Calls

/-! ### The list of the server -/

variable (isup : ISupport)

def watch (watched : Finset Bytes) (line : IrcMessage) : Finset Bytes :=
  if line.param 0 = lit "C" then ∅
  else if line.param 0 = lit "-" then
    watched \ ((splitByte 0x2C (line.param 1)).map isup.fold).toFinset
  else if line.param 0 = lit "+" then
    watched ∪ ((splitByte 0x2C (line.param 1)).map isup.fold).toFinset
  else watched

def watchedNicks (monitor : Monitor) : Finset Bytes := monitor.active.keys.toFinset

theorem mem_watchedNicks :
    key ∈ monitor.watchedNicks ↔ (monitor.active.lookup key).isSome = true := by
  rw [watchedNicks, List.mem_toFinset, ← AList.mem_keys, AList.lookup_isSome]

inductive Call
  | reconcile (registered : Bool) (visit : Iteration Bytes) (enqueues : Bool)
      (desired : List Bytes)
  | rejected (nicks : List Bytes) (limit : Int) (gen : Nat) (enqueues : Bool) (desired : List Bytes)

def Call.run (current : Nat) (monitor : Monitor) : Call → Monitor × Option (List IrcMessage)
  | .reconcile registered visit enqueues desired =>
    monitor.reconcileMonitored isup registered visit enqueues desired
  | .rejected nicks limit gen enqueues desired =>
    monitor.monitorRejected isup current nicks limit gen enqueues desired

structure Watch where
  monitor : Monitor := {}
  server : Finset Bytes := ∅

def Watch.step (current : Nat) (state : Watch) (call : Call) : Watch where
  monitor := (call.run isup current state.monitor).1
  server := ((call.run isup current state.monitor).2.getD []).foldl (watch isup) state.server

variable {isup : ISupport} {monitor next : Monitor} {enqueues : Bool}

/-! ### Groups of targets -/

theorem flatten_targetLoop (positive : 0 < count)
    (enough : targets.length ≤ fuel) : (targetLoop count fuel targets).flatten = targets := by
  fun_induction targetLoop count fuel targets with
  | case1 => exact (eq_nil_of_length_eq_zero (Nat.le_zero.mp enough)).symm
  | case2 => rfl
  | case3 _ _ _ ih =>
    rw [flatten_cons, ih, take_append_drop]
    rw [length_drop]
    simp only [length_cons] at enough ⊢
    omega

theorem ne_nil_of_mem_targetLoop (positive : 0 < count)
    (member : chunk ∈ targetLoop count fuel targets) : chunk ≠ [] := by
  fun_induction targetLoop count fuel targets with
  | case1 => cases member
  | case2 => cases member
  | case3 _ _ _ ih =>
    rcases mem_cons.mp member with rfl | later
    · rw [ne_eq, take_eq_nil_iff]
      rintro (none | none)
      · omega
      · cases none
    · exact ih later

theorem chunkTargets_spec (targets : List Bytes) :
    (chunkTargets targets 10).flatten = targets ∧ ∀ chunk ∈ chunkTargets targets 10, chunk ≠ [] :=
  ⟨flatten_targetLoop (by decide) le_rfl, fun _ => ne_nil_of_mem_targetLoop (by decide)⟩

/-! ### Replaying lines -/

theorem comma_of_validMonitorTarget (valid : validMonitorTarget nick = true) : 0x2C ∉ nick := by
  intro comma
  simp only [validMonitorTarget, Bool.and_eq_true, Bool.not_eq_true', List.any_eq_false] at valid
  exact valid.2 _ comma (by decide)

def folds (isup : ISupport) (nicks : List Bytes) : Finset Bytes := (nicks.map isup.fold).toFinset

theorem mem_folds :
    key ∈ folds isup nicks ↔ ∃ nick ∈ nicks, isup.fold nick = key := by
  rw [folds, List.mem_toFinset, List.mem_map]

theorem folds_append (first second : List Bytes) :
    folds isup (first ++ second) = folds isup first ∪ folds isup second := by
  rw [folds, map_append, toFinset_append]
  rfl

theorem splitByte_chunk (some : chunk ≠ []) (free : ∀ nick ∈ chunk, 0x2C ∉ nick) :
    splitByte 0x2C (join (lit ",") chunk) = chunk :=
  splitByte_join some free

theorem watch_add (some : chunk ≠ []) (free : ∀ nick ∈ chunk, 0x2C ∉ nick)
    (watched : Finset Bytes) :
    watch isup watched (newMsg "MONITOR" [lit "+", join (lit ",") chunk]) =
      watched ∪ folds isup chunk := by
  have first : (newMsg "MONITOR" [lit "+", join (lit ",") chunk]).param 0 = lit "+" := rfl
  have second : (newMsg "MONITOR" [lit "+", join (lit ",") chunk]).param 1 = join (lit ",") chunk :=
    rfl
  rw [watch, first, second, splitByte_chunk some free, if_neg (by decide), if_neg (by decide),
    if_pos rfl]
  rfl

theorem watch_remove (some : chunk ≠ []) (free : ∀ nick ∈ chunk, 0x2C ∉ nick)
    (watched : Finset Bytes) :
    watch isup watched (newMsg "MONITOR" [lit "-", join (lit ",") chunk]) =
      watched \ folds isup chunk := by
  have first : (newMsg "MONITOR" [lit "-", join (lit ",") chunk]).param 0 = lit "-" := rfl
  have second : (newMsg "MONITOR" [lit "-", join (lit ",") chunk]).param 1 = join (lit ",") chunk :=
    rfl
  rw [watch, first, second, splitByte_chunk some free, if_neg (by decide), if_pos rfl]
  rfl

theorem foldl_watch_chunks (isup : ISupport) {change : Finset Bytes → Finset Bytes → Finset Bytes}
    (one : ∀ chunk, chunk ≠ [] → (∀ nick ∈ chunk, 0x2C ∉ nick) → ∀ watched,
      watch isup watched (newMsg "MONITOR" [lit sign, join (lit ",") chunk]) =
        change watched (folds isup chunk))
    (none : ∀ watched, change watched ∅ = watched)
    (both : ∀ watched first second,
      change (change watched first) second = change watched (first ∪ second))
    {chunks : List (List Bytes)} (filled : ∀ chunk ∈ chunks, chunk ≠ [])
    (free : ∀ nick ∈ chunks.flatten, 0x2C ∉ nick) (watched : Finset Bytes) :
    (chunks.map fun chunk => newMsg "MONITOR" [lit sign, join (lit ",") chunk]).foldl (watch isup)
      watched = change watched (folds isup chunks.flatten) := by
  induction chunks generalizing watched with
  | nil => exact (none watched).symm
  | cons chunk _ ih =>
    rw [flatten_cons, forall_mem_append] at free
    rw [forall_mem_cons] at filled
    rw [map_cons, foldl_cons, one chunk filled.1 free.1,
      ih filled.2 free.2, both, flatten_cons, folds_append]

theorem foldl_watch_add (free : ∀ nick ∈ nicks, 0x2C ∉ nick) (watched : Finset Bytes) :
    (monitorLines "+" nicks).foldl (watch isup) watched = watched ∪ folds isup nicks := by
  obtain ⟨whole, filled⟩ := chunkTargets_spec nicks
  have replayed := foldl_watch_chunks isup (fun _ some free => watch_add some free)
    Finset.union_empty Finset.union_assoc filled (by rw [whole]; exact free) watched
  rwa [whole] at replayed

theorem foldl_watch_remove (free : ∀ nick ∈ nicks, 0x2C ∉ nick) (watched : Finset Bytes) :
    (monitorLines "-" nicks).foldl (watch isup) watched = watched \ folds isup nicks := by
  obtain ⟨whole, filled⟩ := chunkTargets_spec nicks
  have replayed := foldl_watch_chunks isup (fun _ some free => watch_remove some free)
    (fun _ => Finset.sdiff_empty) (fun _ _ _ => sdiff_sdiff_left) filled
    (by rw [whole]; exact free) watched
  rwa [whole] at replayed

/-! ### The wanted nicks -/

def wanted (isup : ISupport) (limit : Nat) (desired : List Bytes) : List Bytes :=
  (((desired.filter validMonitorTarget).map isup.fold).eraseDups).take limit

theorem map_targetsLoop (limit : Nat) (taken desired : List Bytes) :
    (targetsLoop isup limit taken desired).map isup.fold =
      ((((desired.filter validMonitorTarget).map isup.fold).filter fun key =>
        !taken.contains key).eraseDups).take (limit - taken.length) := by
  induction desired generalizing taken with
  | nil => simp [targetsLoop]
  | cons nick rest ih =>
    rw [targetsLoop]
    by_cases valid : validMonitorTarget nick = true
    · rw [filter_cons_of_pos valid, map_cons]
      by_cases known : taken.contains (isup.fold nick) = true
      · rw [filter_cons_of_neg (by simpa using known)]
        simp only [valid, known, Bool.not_true, Bool.false_eq_true, if_false, if_true]
        exact ih taken
      · rw [filter_cons_of_pos (by simpa using known), eraseDups_cons]
        simp only [valid, known, Bool.not_true, Bool.false_eq_true, if_false]
        by_cases full : limit ≤ taken.length
        · rw [if_pos full, Nat.sub_eq_zero_of_le full, take_zero, map_nil]
        · obtain ⟨room, split⟩ : ∃ room, limit - taken.length = room + 1 :=
            ⟨limit - taken.length - 1, by omega⟩
          rw [if_neg full, map_cons, ih, split, take_succ_cons,
            List.filter_filter, length_append, length_singleton]
          have rest : limit - (taken.length + 1) = room := by omega
          rw [rest]
          congr 4
          funext key
          by_cases same : key = isup.fold nick
          · simp [same]
          · simp [same]
    · rw [filter_cons_of_neg valid]
      simp only [Bool.not_eq_true] at valid
      simp only [valid, Bool.not_false, if_true]
      exact ih taken

theorem valid_of_mem_targetsLoop {limit : Nat} {taken : List Bytes}
    (member : nick ∈ targetsLoop isup limit taken desired) : validMonitorTarget nick = true := by
  fun_induction targetsLoop isup limit taken desired with
  | case1 => cases member
  | case2 _ _ _ _ ih => exact ih member
  | case3 _ _ _ _ _ ih => exact ih member
  | case4 => cases member
  | case5 _ _ _ valid _ _ ih =>
    rcases mem_cons.mp member with rfl | later
    · simpa using valid
    · exact ih later

theorem folds_monitorTargets (monitor : Monitor) (desired : List Bytes) :
    folds isup (monitor.monitorTargets isup desired) =
      (wanted isup (monitor.monitorTargetLimit isup).toNat desired).toFinset := by
  rw [folds, monitorTargets, map_targetsLoop, wanted]
  simp

theorem free_of_mem_monitorTargets :
    ∀ nick ∈ monitor.monitorTargets isup desired, 0x2C ∉ nick :=
  fun _ member => comma_of_validMonitorTarget (valid_of_mem_targetsLoop member)

/-! ### The two lists are the same -/

def Spelled (isup : ISupport) (active : Dict Bytes Bytes) : Prop :=
  ∀ key spelling, active.lookup key = some spelling → isup.fold spelling = key ∧ 0x2C ∉ spelling

theorem spelled_activate (spelled : Spelled isup active) (free : ∀ nick ∈ nicks, 0x2C ∉ nick) :
    Spelled isup (activate isup active nicks) := by
  induction nicks generalizing active with
  | nil => exact spelled
  | cons _ _ ih =>
    rw [forall_mem_cons] at free
    refine ih (fun key spelling found => ?_) free.2
    rw [lookup_insert_eq] at found
    split at found
    · next same =>
      cases found
      exact ⟨same.symm, free.1⟩
    · exact spelled key spelling found

theorem isSome_activate :
    ((activate isup active nicks).lookup key).isSome = true ↔
      key ∈ folds isup nicks ∨ (active.lookup key).isSome = true := by
  induction nicks generalizing active with
  | nil => simp [activate, folds]
  | cons nick nicks ih =>
    show ((activate isup (active.insert (isup.fold nick) nick) nicks).lookup key).isSome = true ↔ _
    rw [ih, lookup_insert_eq, mem_folds, mem_folds, exists_mem_cons_iff]
    by_cases same : key = isup.fold nick
    · simp [same]
    · simp [same, Ne.symm same]

/-- A call has enqueued lines that bring the server's list to what the client now believes, or
nothing, and believes what it did. -/
structure Replays (isup : ISupport) (monitor : Monitor)
    (result : Monitor × Option (List IrcMessage)) : Prop where
  spelled : Spelled isup result.1.active
  same : (result.2.getD []).foldl (watch isup) monitor.watchedNicks = result.1.watchedNicks

section

variable (spelled : Spelled isup monitor.active)
include spelled

theorem replays_unchanged
    (same : next.active = monitor.active) (none : lines.getD [] = []) :
    Replays isup monitor (next, lines) := by
  refine ⟨?_, ?_⟩
  · show Spelled isup next.active
    rwa [same]
  · rw [none]
    show monitor.watchedNicks = next.watchedNicks
    rw [watchedNicks, watchedNicks, same]

theorem replays_rebuild {enqueues : Bool} :
    Replays isup monitor (monitor.rebuildMonitored isup enqueues desired) ∧
      ((monitor.rebuildMonitored isup enqueues desired).2.isSome = true →
        (monitor.rebuildMonitored isup enqueues desired).1.watchedNicks =
          folds isup (monitor.monitorTargets isup desired)) := by
  rw [rebuildMonitored]
  split
  · have watched : ({ monitor with
        active := activate isup ∅ (monitor.monitorTargets isup desired) } : Monitor).watchedNicks =
        folds isup (monitor.monitorTargets isup desired) := by
      ext key
      rw [mem_watchedNicks, isSome_activate]
      simp
    refine ⟨⟨?_, ?_⟩, fun _ => watched⟩
    · exact spelled_activate nofun free_of_mem_monitorTargets
    · rw [getD_some, foldl_cons, foldl_watch_add free_of_mem_monitorTargets, watched]
      exact Finset.empty_union _
  · exact ⟨replays_unchanged spelled rfl rfl, nofun⟩

theorem replays_complete :
    Replays isup monitor (monitor.completeMonitorRebuild isup enqueues desired) ∧
      ((monitor.completeMonitorRebuild isup enqueues desired).2.isSome = true →
        (monitor.completeMonitorRebuild isup enqueues desired).1.watchedNicks =
          folds isup (monitor.monitorTargets isup desired)) := by
  obtain ⟨replays, watched⟩ := replays_rebuild spelled
  rw [completeMonitorRebuild]
  split
  · next rebuilt =>
    rw [rebuilt] at replays
    exact ⟨replays, nofun⟩
  · next lines rebuilt =>
    rw [rebuilt] at replays watched
    exact ⟨⟨replays.spelled, replays.same⟩, fun _ => watched rfl⟩

end

/-- The diff between what is watched and what is wanted: what is removed is watched and not
wanted, what is added is wanted and not watched. -/
structure Diff (isup : ISupport) (active : Dict Bytes Bytes) (targets removed added : List Bytes) :
    Prop where
  mem_removed : ∀ key, key ∈ removed ↔ (active.lookup key).isSome = true ∧ key ∉ folds isup targets
  mem_added : ∀ nick, nick ∈ added ↔
    nick ∈ targets ∧ ¬(active.lookup (isup.fold nick)).isSome = true

namespace Diff

variable {active : Dict Bytes Bytes} {targets removed added : List Bytes}

theorem of_visit (isup : ISupport) (active : Dict Bytes Bytes) (targets : List Bytes)
    (visit : Iteration Bytes) :
    Diff isup active targets
      (visit.order (active.keys.filter fun key => !(targets.map isup.fold).contains key))
      (targets.filter fun nick => (active.lookup (isup.fold nick)).isNone) where
  mem_removed key := by
    rw [(visit.perm _).mem_iff, mem_filter, ← AList.mem_keys, AList.lookup_isSome, folds,
      List.mem_toFinset]
    simp
  mem_added nick := by
    rw [mem_filter]
    simp

theorem in_sync (diff : Diff isup active targets [] []) :
    (active.lookup key).isSome = true ↔ key ∈ folds isup targets := by
  constructor
  · intro watched
    by_contra unwanted
    cases (diff.mem_removed key).mpr ⟨watched, unwanted⟩
  · intro wantedKey
    obtain ⟨nick, member, rfl⟩ := mem_folds.mp wantedKey
    by_contra unwatched
    cases (diff.mem_added nick).mpr ⟨member, unwatched⟩

theorem isSome_applied (diff : Diff isup active targets removed added) :
    ((activate isup (removed.foldl (fun active key => active.erase key) active) added).lookup
      key).isSome = true ↔ key ∈ folds isup targets := by
  rw [isSome_activate, mem_folds]
  constructor
  · rintro (⟨nick, member, rfl⟩ | kept)
    · exact mem_folds.mpr ⟨nick, ((diff.mem_added nick).mp member).1, rfl⟩
    · by_cases gone : key ∈ removed
      · rw [(lookup_foldl_erase removed active key).1 gone] at kept
        cases kept
      · rw [(lookup_foldl_erase removed active key).2 gone] at kept
        by_contra unwanted
        exact gone ((diff.mem_removed key).mpr ⟨kept, unwanted⟩)
  · intro wantedKey
    obtain ⟨nick, member, rfl⟩ := mem_folds.mp wantedKey
    by_cases known : (active.lookup (isup.fold nick)).isSome = true
    · have stays : isup.fold nick ∉ removed := fun gone =>
        ((diff.mem_removed _).mp gone).2 wantedKey
      rw [(lookup_foldl_erase removed active _).2 stays]
      exact .inr known
    · exact .inl ⟨nick, (diff.mem_added nick).mpr ⟨member, known⟩, rfl⟩

theorem spelled_applied (spelled : Spelled isup active) (free : ∀ nick ∈ added, 0x2C ∉ nick) :
    Spelled isup
      (activate isup (removed.foldl (fun active key => active.erase key) active) added) := by
  refine spelled_activate (fun key spelling found => ?_) free
  by_cases gone : key ∈ removed
  · rw [(lookup_foldl_erase removed active key).1 gone] at found
    cases found
  · rw [(lookup_foldl_erase removed active key).2 gone] at found
    exact spelled key spelling found

theorem folds_spellings (diff : Diff isup active targets removed added)
    (spelled : Spelled isup active) :
    folds isup (removed.map fun key => (active.lookup key).getD []) = removed.toFinset ∧
      ∀ nick ∈ removed.map fun key => (active.lookup key).getD [], 0x2C ∉ nick := by
  have spelling : ∀ key ∈ removed, isup.fold ((active.lookup key).getD []) = key ∧
      0x2C ∉ (active.lookup key).getD [] := by
    intro key member
    obtain ⟨nick, found⟩ := isSome_iff_exists.mp ((diff.mem_removed key).mp member).1
    rw [found]
    exact spelled key nick found
  refine ⟨?_, fun nick member => ?_⟩
  · have back : removed.map (isup.fold ∘ fun key => (active.lookup key).getD []) = removed :=
      (map_congr_left fun key member => (spelling key member).1).trans (map_id' removed)
    rw [folds, List.map_map, back]
  · obtain ⟨key, listed, rfl⟩ := mem_map.mp member
    exact (spelling key listed).2

theorem replayed (diff : Diff isup monitor.active targets removed added)
    (spelled : Spelled isup monitor.active) (free : ∀ nick ∈ added, 0x2C ∉ nick) :
    (monitorLines "-" (removed.map fun key => (monitor.active.lookup key).getD []) ++
      monitorLines "+" added).foldl (watch isup) monitor.watchedNicks = folds isup targets := by
  obtain ⟨same, spellings⟩ := diff.folds_spellings spelled
  rw [foldl_append, foldl_watch_remove spellings, foldl_watch_add free, same]
  ext key
  rw [Finset.mem_union, Finset.mem_sdiff, mem_watchedNicks, List.mem_toFinset, mem_folds]
  constructor
  · rintro (⟨watched, stays⟩ | ⟨nick, member, rfl⟩)
    · by_contra unwanted
      exact stays ((diff.mem_removed key).mpr ⟨watched, unwanted⟩)
    · exact mem_folds.mpr ⟨nick, ((diff.mem_added nick).mp member).1, rfl⟩
  · intro wantedKey
    obtain ⟨nick, member, rfl⟩ := mem_folds.mp wantedKey
    by_cases known : (monitor.active.lookup (isup.fold nick)).isSome = true
    · exact .inl ⟨known, fun gone => ((diff.mem_removed _).mp gone).2 wantedKey⟩
    · exact .inr ⟨nick, (diff.mem_added nick).mpr ⟨member, known⟩, rfl⟩

end Diff

theorem replays_reconcile (spelled : Spelled isup monitor.active) :
    Replays isup monitor (monitor.reconcile isup visit enqueues desired) ∧
      ((monitor.reconcile isup visit enqueues desired).2.isSome = true →
        (monitor.reconcile isup visit enqueues desired).1.watchedNicks =
          folds isup (monitor.monitorTargets isup desired)) := by
  have diff := Diff.of_visit isup monitor.active (monitor.monitorTargets isup desired) visit
  have freeTargets : ∀ nick ∈ monitor.monitorTargets isup desired, 0x2C ∉ nick :=
    free_of_mem_monitorTargets
  rw [reconcile]
  generalize monitor.monitorTargets isup desired = targets at diff freeTargets ⊢
  generalize visit.order (monitor.active.keys.filter fun key =>
    !(targets.map isup.fold).contains key) = removed at diff ⊢
  generalize targets.filter (fun nick =>
    (monitor.active.lookup (isup.fold nick)).isNone) = added at diff ⊢
  have free : ∀ nick ∈ added, 0x2C ∉ nick := fun nick member =>
    freeTargets nick ((diff.mem_added nick).mp member).1
  by_cases quiet : removed = [] ∧ added = []
  · obtain ⟨rfl, rfl⟩ := quiet
    rw [if_pos ⟨rfl, rfl⟩]
    refine ⟨replays_unchanged spelled rfl rfl, fun _ => ?_⟩
    ext key
    rw [mem_watchedNicks]
    exact diff.in_sync
  · rw [if_neg quiet]
    cases enqueues with
    | false => exact ⟨replays_unchanged spelled rfl rfl, nofun⟩
    | true =>
      rw [if_pos rfl]
      have watched : ({ monitor with
          active := activate isup (removed.foldl (fun active key => active.erase key)
            monitor.active) added } : Monitor).watchedNicks = folds isup targets := by
        ext key
        rw [mem_watchedNicks]
        exact diff.isSome_applied
      exact ⟨⟨Diff.spelled_applied spelled free,
        (diff.replayed spelled free).trans watched.symm⟩, fun _ => watched⟩

/-! ### Sequences of calls -/

theorem Replays.of_active {result : Monitor × Option (List IrcMessage)}
    (replays : Replays isup next result) (same : next.active = monitor.active) :
    Replays isup monitor result := by
  refine ⟨replays.spelled, ?_⟩
  rw [← replays.same, watchedNicks, watchedNicks, same]

section

variable (spelled : Spelled isup monitor.active)
include spelled

theorem replays_reconcileMonitored {registered : Bool} :
    Replays isup monitor (monitor.reconcileMonitored isup registered visit enqueues desired) := by
  rw [reconcileMonitored]
  split
  · exact replays_unchanged spelled rfl rfl
  · split
    · exact (replays_complete spelled).1
    · exact (replays_reconcile spelled).1

theorem replays_rejected {current : Nat}
    {nicks : List Bytes} :
    Replays isup monitor
      (monitor.monitorRejected isup current nicks limit gen enqueues desired) := by
  rw [monitorRejected]
  split
  · exact replays_unchanged spelled rfl rfl
  · split
    · exact replays_unchanged spelled rfl rfl
    · dsimp only
      -- the limit that was learned leaves what is watched alone
      generalize limited : (if 0 < learnedLimit isup monitor.active nicks limit ∧
          (monitor.limit734 = 0 ∨
            learnedLimit isup monitor.active nicks limit < monitor.limit734) then
        { monitor with limit734 := learnedLimit isup monitor.active nicks limit }
        else monitor) = lowered
      have same : lowered.active = monitor.active := by
        rw [← limited]
        split
        · rfl
        · rfl
      split
      · exact replays_unchanged spelled same rfl
      · have pending : Spelled isup ({ lowered with rebuildPending := true } : Monitor).active := by
          rwa [same]
        exact (replays_complete pending).1.of_active same

theorem Call.replays (current : Nat) (call : Call) :
    Replays isup monitor (call.run isup current monitor) := by
  cases call with
  | reconcile =>
    exact replays_reconcileMonitored spelled
  | rejected =>
    exact replays_rejected spelled

end

structure Mirrors (isup : ISupport) (state : Watch) : Prop where
  spelled : Spelled isup state.monitor.active
  same : state.server = state.monitor.watchedNicks

theorem Mirrors.step {state : Watch} (mirrors : Mirrors isup state) (current : Nat) (call : Call) :
    Mirrors isup (state.step isup current call) := by
  have replays := call.replays mirrors.spelled current
  refine ⟨replays.spelled, ?_⟩
  rw [Watch.step, mirrors.same]
  exact replays.same

def Watch.after (isup : ISupport) (current : Nat) (calls : List Call) : Watch :=
  calls.foldl (Watch.step isup current) {}

theorem Watch.after_concat (isup : ISupport) (current : Nat) (calls : List Call) (call : Call) :
    Watch.after isup current (calls ++ [call]) = (Watch.after isup current calls).step isup current
      call := by
  rw [Watch.after, foldl_append]
  rfl

theorem mirrors_after (isup : ISupport) (current : Nat) (calls : List Call) :
    Mirrors isup (Watch.after isup current calls) := by
  induction calls using reverseRecOn with
  | nil => exact ⟨nofun, rfl⟩
  | append_singleton _ call ih =>
    rw [Watch.after_concat]
    exact ih.step current call

theorem watchedNicks_reconcileMonitored (spelled : Spelled isup monitor.active)
    (advertised : isup.monitorAdvertised = true)
    (accepted : (monitor.reconcileMonitored isup true visit enqueues desired).2.isSome = true) :
    (monitor.reconcileMonitored isup true visit enqueues desired).1.watchedNicks =
      folds isup (monitor.monitorTargets isup desired) := by
  have driven : (!true || !isup.monitorAdvertised) = false := by rw [advertised]; rfl
  rw [reconcileMonitored, driven, if_neg Bool.false_ne_true] at accepted ⊢
  split at accepted
  · next pending =>
    rw [if_pos pending]
    exact (replays_complete spelled).2 accepted
  · next settled =>
    rw [if_neg settled]
    exact (replays_reconcile spelled).2 accepted

theorem monitorTargetLimit_le {isup : ISupport} : monitor.monitorTargetLimit isup ≤ 1024 := by
  rw [monitorTargetLimit]
  split
  · decide
  · next bounded =>
    rw [not_or, not_lt] at bounded
    exact bounded.2

/-- After any calls, with any of the lines refused by the queue, the list that the accepted lines
amount to is the one the client believes in. After a reconciliation that reports success it is the
wanted nicks within the limit. -/
theorem monitor_mirrors_server (isup : ISupport) (current : Nat) (calls : List Call) :
    (Watch.after isup current calls).server =
        (Watch.after isup current calls).monitor.watchedNicks ∧
      ∀ (visit : Iteration Bytes) (enqueues : Bool) (desired : List Bytes),
        isup.monitorAdvertised = true →
        (Call.run isup current (Watch.after isup current calls).monitor
          (.reconcile true visit enqueues desired)).2.isSome = true →
        (Watch.after isup current (calls ++ [.reconcile true visit enqueues desired])).server =
          (wanted isup ((Watch.after isup current calls).monitor.monitorTargetLimit isup).toNat
            desired).toFinset ∧
        (Watch.after isup current calls).monitor.monitorTargetLimit isup ≤ 1024 := by
  have mirrors := mirrors_after isup current calls
  refine ⟨mirrors.same, fun visit enqueues desired advertised accepted => ⟨?_, ?_⟩⟩
  · rw [Watch.after_concat, (mirrors.step current _).same, ← folds_monitorTargets]
    exact watchedNicks_reconcileMonitored mirrors.spelled advertised accepted
  · exact monitorTargetLimit_le

theorem monitor_mirrors_server_promotes :
    ∃ isup : ISupport, isup.monitorAdvertised = true ∧ (Watch.after isup 0
        [.reconcile true .plain true [lit "bob", lit "carol"],
          .reconcile true .plain true [lit "carol"]]).server = {lit "carol"} := by
  refine ⟨{ raw := (∅ : Dict Bytes Bytes).insert (lit "MONITOR") (lit "1") }, by decide +kernel, ?_⟩
  exact ((monitor_mirrors_server _ 0 [.reconcile true .plain true [lit "bob", lit "carol"]]).2
    .plain true [lit "carol"] (by decide +kernel) (by decide +kernel)).1.trans (by decide +kernel)

/-- Without MONITOR a reconciliation reports success and watches nobody. -/
theorem unadvertised_watches_nobody :
    (Call.run {} 0 (Watch.after {} 0 []).monitor
        (.reconcile true .plain true [lit "bob"])).2.isSome = true ∧
      (Watch.after {} 0 [.reconcile true .plain true [lit "bob"]]).server = ∅ ∧
      (wanted {} ((Watch.after {} 0 []).monitor.monitorTargetLimit {}).toNat
        [lit "bob"]).toFinset = {lit "bob"} := by
  decide +kernel

/-! ### Rebuilds -/

def clears (lines : Option (List IrcMessage)) : Bool :=
  (lines.getD []).any fun line => line.param 0 == lit "C"

def rebuildLimits (isup : ISupport) (current : Nat) (monitor : Monitor) : List Call → List Int
  | [] => []
  | call :: calls =>
    let result := call.run isup current monitor
    let later := rebuildLimits isup current result.1 calls
    if clears result.2 then result.1.monitorTargetLimit isup :: later else later

structure Recovering (isup : ISupport) (monitor : Monitor) : Prop where
  reached : monitor.recovered734 = true → monitor.monitorTargetLimit isup ≤ monitor.recoveredCap
  tighter : monitor.recovered734 = true → monitor.rebuildPending = true →
    monitor.monitorTargetLimit isup < monitor.recoveredCap

structure Recovers (isup : ISupport) (monitor : Monitor)
    (result : Monitor × Option (List IrcMessage)) : Prop where
  recovering : result.1.Recovering isup
  rebuilt : clears result.2 = true → result.1.recovered734 = true ∧
    result.1.recoveredCap = result.1.monitorTargetLimit isup ∧
    (monitor.recovered734 = true → result.1.recoveredCap < monitor.recoveredCap)
  kept : clears result.2 = false → result.1.recovered734 = monitor.recovered734 ∧
    result.1.recoveredCap = monitor.recoveredCap

theorem clears_monitorLines (other : lit sign ≠ lit "C") :
    ((monitorLines sign nicks).any fun line => line.param 0 == lit "C") = false := by
  refine any_eq_false.mpr fun line member => ?_
  obtain ⟨_, -, rfl⟩ := mem_map.mp member
  exact fun same => other (beq_iff_eq.mp same)

theorem recovers_unchanged (recovering : monitor.Recovering isup) (quiet : clears lines = false) :
    Recovers isup monitor ({ monitor with active := active }, lines) :=
  ⟨⟨recovering.reached, recovering.tighter⟩,
    fun cleared => absurd (quiet.symm.trans cleared) Bool.false_ne_true, fun _ => ⟨rfl, rfl⟩⟩

theorem recovers_complete (enqueues : Bool) (desired : List Bytes)
    (tighter : monitor.recovered734 = true →
      monitor.monitorTargetLimit isup < monitor.recoveredCap) :
    Recovers isup monitor (monitor.completeMonitorRebuild isup enqueues desired) := by
  cases enqueues with
  | false =>
    exact recovers_unchanged ⟨fun recovered => (tighter recovered).le,
      fun recovered _ => tighter recovered⟩ rfl
  | true =>
    have cleared : clears (monitor.completeMonitorRebuild isup true desired).2 = true := rfl
    exact ⟨⟨fun _ => le_rfl, fun _ pending => absurd pending Bool.false_ne_true⟩,
      fun _ => ⟨rfl, rfl, tighter⟩,
      fun quiet => absurd (quiet.symm.trans cleared) Bool.false_ne_true⟩

theorem recovers_reconcile (recovering : monitor.Recovering isup) :
    Recovers isup monitor (monitor.reconcile isup visit enqueues desired) := by
  unfold reconcile
  dsimp only
  split
  · exact recovers_unchanged recovering rfl
  · split
    · refine recovers_unchanged recovering ?_
      rw [clears, getD_some, any_append, clears_monitorLines (by decide),
        clears_monitorLines (by decide)]
      rfl
    · exact recovers_unchanged recovering rfl

theorem monitorTargetLimit_learn (positive : 0 < limit)
    (lower : monitor.limit734 = 0 ∨ limit < monitor.limit734) :
    ({ monitor with limit734 := limit } : Monitor).monitorTargetLimit isup ≤
      monitor.monitorTargetLimit isup := by
  simp only [monitorTargetLimit, effectiveMonitorLimit, maxReconcileTargets]
  split_ifs <;> omega

theorem recovers_rejected (recovering : monitor.Recovering isup) {current : Nat} :
    Recovers isup monitor
      (monitor.monitorRejected isup current nicks limit gen enqueues desired) := by
  -- A stale refusal leaves everything but the learned limit, any other begins a rebuild.
  have learned : ∀ limit734 : Int,
      ({ monitor with limit734 } : Monitor).monitorTargetLimit isup ≤
        monitor.monitorTargetLimit isup →
      Recovers isup monitor
        (if monitor.recovered734 ∧ monitor.recoveredCap ≤
            ({ monitor with limit734 } : Monitor).monitorTargetLimit isup then
          ({ monitor with limit734 }, some [])
        else ({ monitor with limit734, rebuildPending := true } : Monitor).completeMonitorRebuild
          isup enqueues desired) := by
    intro limit734 tightens
    split
    · refine ⟨⟨fun recovered => tightens.trans (recovering.reached recovered),
        fun recovered pending => tightens.trans_lt (recovering.tighter recovered pending)⟩,
        fun cleared => absurd cleared Bool.false_ne_true, fun _ => ⟨rfl, rfl⟩⟩
    · next fresh =>
      have begun : Recovers isup { monitor with limit734, rebuildPending := true } _ :=
        recovers_complete enqueues desired fun recovered =>
          not_le.mp fun stale => fresh ⟨recovered, stale⟩
      exact ⟨begun.recovering, begun.rebuilt, begun.kept⟩
  unfold monitorRejected
  split
  · exact recovers_unchanged recovering rfl
  · split
    · exact recovers_unchanged recovering rfl
    · dsimp only
      split
      · next lower => exact learned _ (monitorTargetLimit_learn lower.1 lower.2)
      · exact learned monitor.limit734 le_rfl

theorem Call.recovers (recovering : monitor.Recovering isup) (current : Nat) (call : Call) :
    Recovers isup monitor (call.run isup current monitor) := by
  cases call with
  | reconcile =>
    unfold run reconcileMonitored
    dsimp only
    split
    · exact recovers_unchanged recovering rfl
    · split
      · next pending =>
        exact recovers_complete _ _ fun recovered => recovering.tighter recovered pending
      · exact recovers_reconcile recovering
  | rejected => exact recovers_rejected recovering

theorem monitorTargetLimit_pos : 0 < monitor.monitorTargetLimit isup := by
  simp only [monitorTargetLimit, maxReconcileTargets]
  split_ifs <;> omega

theorem rebuildLimits_spec (recovering : monitor.Recovering isup) (current : Nat)
    (calls : List Call) :
    (rebuildLimits isup current monitor calls).Pairwise (· > ·) ∧
      ∀ limit ∈ rebuildLimits isup current monitor calls, 0 < limit ∧ limit ≤ 1024 ∧
        (monitor.recovered734 = true → limit < monitor.recoveredCap) := by
  induction calls generalizing monitor with
  | nil => exact ⟨.nil, forall_mem_nil _⟩
  | cons call _ ih =>
    obtain ⟨next, rebuilt, kept⟩ := call.recovers recovering current
    obtain ⟨decreasing, below⟩ := ih next
    unfold rebuildLimits
    dsimp only
    split
    · next cleared =>
      obtain ⟨recovered, settled, tighter⟩ := rebuilt cleared
      rw [settled] at tighter below
      refine ⟨decreasing.cons fun limit member => (below limit member).2.2 recovered,
        forall_mem_cons.mpr ⟨⟨monitorTargetLimit_pos, monitorTargetLimit_le, tighter⟩,
          fun limit member => ?_⟩⟩
      obtain ⟨positive, bounded, smaller⟩ := below limit member
      exact ⟨positive, bounded, fun before => (smaller recovered).trans (tighter before)⟩
    · next quiet =>
      obtain ⟨recovered, cap⟩ := kept (Bool.eq_false_of_not_eq_true quiet)
      rw [recovered, cap] at below
      exact ⟨decreasing, below⟩

/-- Every rebuild is within a smaller limit than the one before, so there are at most as many as
there are limits. -/
theorem monitor_rebuilds_bounded (isup : ISupport) (current : Nat) (calls : List Call) :
    (rebuildLimits isup current {} calls).Pairwise (· > ·) ∧
      (rebuildLimits isup current {} calls).length ≤ 1024 := by
  have initial : ({} : Monitor).Recovering isup :=
    ⟨fun recovered => absurd recovered Bool.false_ne_true,
      fun recovered => absurd recovered Bool.false_ne_true⟩
  obtain ⟨decreasing, bounded⟩ := rebuildLimits_spec initial current calls
  have distinct : (rebuildLimits isup current {} calls).Nodup := decreasing.imp fun more => more.ne'
  have within : (rebuildLimits isup current {} calls).toFinset ⊆ Finset.Ioc 0 1024 := by
    intro limit member
    obtain ⟨positive, most, -⟩ := bounded limit (mem_toFinset.mp member)
    exact Finset.mem_Ioc.mpr ⟨positive, most⟩
  refine ⟨decreasing, ?_⟩
  rw [← toFinset_card_of_nodup distinct]
  exact (Finset.card_le_card within).trans_eq (Int.card_Ioc 0 1024)

end Monitor

end Ircthing.Irc
