/-
This file says what the rows of one host amount to, and what each operation does to that.
-/

import Ircthing.Store.Sts

namespace Ircthing.Store

open Library Effect List Option StsRecord

variable {record merged current : StsRecord} {reason : StsError} {revision epoch : UInt64}
  {best : StrongestAlias} {value : Option StsRow} {expected : Option UInt64} {table : StsTable}
  {env : StsEnv} {name : Bytes}

/-! ### What the rows of a host amount to -/

variable (record)

def StsRecord.readable : Bool :=
  if record.disabled then record.revision != 0
  else record.untilMs.any (0 < ·) && decide (0 < record.port) && decide (record.port ≤ 65535)

def StsRecord.lasts : Int :=
  if record.disabled then 0 else record.untilMs.getD 0

/-- What `STSPolicy` returns for a record. -/
def StsRecord.policy : StsPolicy :=
  if record.disabled then { revision := record.revision, policyEpoch := record.policyEpoch }
  else
    { port := record.port
      expiry := ofUnixMilli record.lasts
      duration := record.decodedDuration
      revision := record.revision
      policyEpoch := record.policyEpoch
      ok := true }

def StsRecord.merge (best record : StsRecord) : StsRecord :=
  { (if best.lasts < record.lasts then record else best) with
    revision := max best.revision record.revision }

inductive HeldPolicy
  | absent
  | unreadable
  | holds (record : StsRecord)
deriving DecidableEq

def readRow (row : StsRow) : Option StsRecord := row.filter StsRecord.readable

def heldRows (rows : List StsRow) : HeldPolicy :=
  match rows.mapM readRow with
  | none => .unreadable
  | some [] => .absent
  | some (first :: later) => .holds (later.foldl StsRecord.merge first)

variable (canon : Bytes → Bytes)

def held (host : Bytes) (table : StsTable) : HeldPolicy :=
  heldRows ((stsAliases canon host table).map Prod.snd)

theorem decodeSTSPolicy_record (host : Bytes) (record : StsRecord) :
    decodeSTSPolicy host (some (some record)) =
      if record.readable then .ok record.policy else .error (.corrupt host) := by
  unfold StsRecord.readable StsRecord.policy StsRecord.lasts
  rw [decodeSTSPolicy]
  cases record.disabled with
  | true =>
    by_cases zero : record.revision = 0
    · simp [zero]
    · simp [zero]
  | false =>
    cases record.untilMs with
    | none => simp
    | some untilMs =>
      by_cases bad : record.port ≤ 0 ∨ 65535 < record.port ∨ untilMs ≤ 0
      · have refused : ¬ ((0 < untilMs ∧ 0 < record.port) ∧ record.port ≤ 65535) := by omega
        simp [bad, refused]
      · have accepted : (0 < untilMs ∧ 0 < record.port) ∧ record.port ≤ 65535 := by omega
        simp [bad, accepted]

variable {record}

theorem decodeSTSPolicy_row (host : Bytes) (row : StsRow) :
    decodeSTSPolicy host (some row) =
      (readRow row).elim (.error (.corrupt host)) fun record => .ok record.policy := by
  cases row with
  | none => rfl
  | some =>
    rw [decodeSTSPolicy_record, readRow, filter_some]
    split <;> rfl

theorem StsRecord.lasts_nonneg (readable : record.readable = true) :
    0 ≤ record.lasts ∧ (record.policy.ok = true ↔ 0 < record.lasts) := by
  unfold StsRecord.readable at readable
  unfold StsRecord.policy StsRecord.lasts
  cases disabled : record.disabled with
  | true => simp
  | false =>
    cases expires : record.untilMs with
    | none => simp [disabled, expires] at readable
    | some =>
      simp [disabled, expires] at readable
      simp
      omega

/-! ### The choice among the rows -/

variable (now : Int)

/-- The loop of `strongestSTSAlias` has come to a record: it holds it up to its revision, and its
other variables are those of the record. -/
structure Tracks (best : StrongestAlias) (record : StsRecord) : Prop where
  readable : record.readable = true
  chosen : { best.chosen with revision := record.revision } = record
  revision : best.maxRevision = record.revision
  lasts : best.chosenUntil = record.lasts
  active : best.chosenActive = (record.policy.ok && decide (now < ofUnixMilli record.lasts))

def StsRecord.candidate (record : StsRecord) : StrongestAlias where
  chosen := record
  chosenActive := record.policy.ok && now < record.policy.expiry
  chosenUntil := if record.policy.ok then unixMilli record.policy.expiry else 0
  maxRevision := record.policy.revision

theorem tracks_candidate (readable : record.readable = true) :
    Tracks now (record.candidate now) record := by
  unfold StsRecord.candidate
  refine ⟨readable, rfl, ?_, ?_, ?_⟩
  · unfold StsRecord.policy
    split <;> rfl
  · unfold StsRecord.policy
    split
    next disabled =>
      rw [StsRecord.lasts, if_pos disabled]
      rfl
    · exact unixMilli_ofUnixMilli _
  · unfold StsRecord.policy
    split <;> rfl

theorem beats_iff {best : StsRecord} (bestReadable : best.readable = true)
    (readable : record.readable = true) :
    (((record.policy.ok && decide (now < ofUnixMilli record.lasts)) &&
        !(best.policy.ok && decide (now < ofUnixMilli best.lasts))) ||
      ((record.policy.ok && decide (now < ofUnixMilli record.lasts)) ==
          (best.policy.ok && decide (now < ofUnixMilli best.lasts)) &&
        decide (best.lasts < record.lasts))) = true ↔ best.lasts < record.lasts := by
  obtain ⟨_, bestOk⟩ := lasts_nonneg bestReadable
  obtain ⟨_, ok⟩ := lasts_nonneg readable
  unfold ofUnixMilli
  cases bestEnforced : best.policy.ok <;> cases enforced : record.policy.ok <;>
    simp [bestEnforced] at bestOk <;> simp [enforced] at ok <;> simp <;> omega

theorem le_max_revision {first second : UInt64} :
    first ≤ max first second ∧ second ≤ max first second := by
  rw [UInt64.max_def]
  split
  next below =>
    exact ⟨below, UInt64.le_refl second⟩
  next above =>
    exact ⟨UInt64.le_refl first, (UInt64.le_total first second).resolve_left above⟩

theorem StsRecord.readable_raised (readable : record.readable = true)
    (raised : record.revision ≤ revision) :
    StsRecord.readable { record with revision := revision } = true := by
  unfold StsRecord.readable at readable ⊢
  cases disabled : record.disabled with
  | false => simpa [disabled] using readable
  | true =>
    simp only [disabled, if_true, bne_iff_ne] at readable ⊢
    rintro rfl
    exact readable (UInt64.le_zero_iff.mp raised)

theorem StsRecord.readable_merge {best : StsRecord} (bestReadable : best.readable = true)
    (readable : record.readable = true) : (best.merge record).readable = true := by
  obtain ⟨left, right⟩ := le_max_revision
  unfold StsRecord.merge
  split
  · exact readable_raised readable right
  · exact readable_raised bestReadable left

theorem StsRecord.lasts_merge (best record : StsRecord) :
    (best.merge record).lasts = if best.lasts < record.lasts then record.lasts else best.lasts := by
  unfold StsRecord.merge
  split <;> rfl

theorem StsRecord.ok_merge (best record : StsRecord) :
    (best.merge record).policy.ok =
      if best.lasts < record.lasts then record.policy.ok else best.policy.ok := by
  have same : ∀ (chosen : StsRecord) (revision : UInt64),
      ({ chosen with revision := revision } : StsRecord).policy.ok = chosen.policy.ok := by
    intro chosen revision
    unfold StsRecord.policy
    split <;> rfl
  unfold StsRecord.merge
  split <;> exact same _ _

theorem strongestRound_tracks (host : Bytes) (now : Int) (tracks : Tracks now best merged)
    (key : Bytes) (readable : record.readable = true) :
    ∃ next, strongestRound canon now host (some best) (key, some record) = .ok (some next) ∧
      Tracks now next (merged.merge record) := by
  have candidate := tracks_candidate now readable
  have decoded : decodeSTSPolicy (canon host) (some (some record)) = .ok record.policy := by
    rw [decodeSTSPolicy_record, if_pos readable]
  have wins := beats_iff now tracks.readable readable
  rw [← tracks.active, ← candidate.active, ← tracks.lasts, ← candidate.lasts] at wins
  have lasts := StsRecord.lasts_merge merged record
  have ok := StsRecord.ok_merge merged record
  have revision : max best.maxRevision record.policy.revision =
      max merged.revision record.revision := congrArg₂ max tracks.revision candidate.revision
  unfold strongestRound
  rw [decoded]
  by_cases later : merged.lasts < record.lasts
  · rw [if_pos later] at lasts ok
    refine ⟨_, if_pos (wins.mpr ?_), StsRecord.readable_merge tracks.readable readable, ?_, ?_,
      ?_, ?_⟩
    · rw [tracks.lasts, candidate.lasts]
      exact later
    · rw [StsRecord.merge, if_pos later]
      rfl
    · rw [StsRecord.merge, if_pos later]
      exact revision
    · rw [lasts]
      exact candidate.lasts
    · rw [lasts, ok]
      exact candidate.active
  · rw [if_neg later] at lasts ok
    refine ⟨_, if_neg fun won => later ?_, StsRecord.readable_merge tracks.readable readable, ?_,
      ?_, ?_, ?_⟩
    · have longer := wins.mp won
      rwa [tracks.lasts, candidate.lasts] at longer
    · rw [StsRecord.merge, if_neg later]
      exact congrArg (fun chosen : StsRecord =>
        { chosen with revision := max merged.revision record.revision }) tracks.chosen
    · rw [StsRecord.merge, if_neg later]
      exact revision
    · rw [lasts]
      exact tracks.lasts
    · rw [lasts, ok]
      exact tracks.active

theorem strongestLoop_tracks (host : Bytes) (now : Int) (rows : List (Bytes × StsRow))
    (tracks : Tracks now best merged) :
    ((rows.map Prod.snd).mapM readRow).elim
      (rows.foldlM (strongestRound canon now host) (some best) = .error (.corrupt (canon host)))
      (fun records => ∃ last,
        rows.foldlM (strongestRound canon now host) (some best) = .ok (some last) ∧
          Tracks now last (records.foldl StsRecord.merge merged)) := by
  induction rows generalizing best merged with
  | nil => exact ⟨best, rfl, tracks⟩
  | cons row rows ih =>
    obtain ⟨key, row⟩ := row
    rw [map_cons, mapM_cons, foldlM_cons]
    cases read : readRow row with
    | none =>
      have decoded : decodeSTSPolicy (canon host) (some row) = _ := decodeSTSPolicy_row _ row
      rw [read] at decoded
      unfold strongestRound
      rw [decoded]
      rfl
    | some =>
      obtain ⟨rfl, readable⟩ := filter_eq_some_iff.mp read
      obtain ⟨_, rounded, nextTracks⟩ :=
        strongestRound_tracks canon host now tracks key readable
      have rest := ih nextTracks
      rw [rounded]
      cases records : (rows.map Prod.snd).mapM readRow with
      | none | some records =>
        rw [records] at rest
        exact rest

theorem heldRows_cons (row : StsRow) (rows : List StsRow) :
    heldRows (row :: rows) = (readRow row).elim .unreadable fun first =>
        (rows.mapM readRow).elim .unreadable fun later =>
          .holds (later.foldl StsRecord.merge first) := by
  unfold heldRows
  rw [mapM_cons]
  cases readRow row with
  | none => rfl
  | some =>
    cases rows.mapM readRow with
    | none => rfl
    | some => rfl

theorem strongestSTSAlias_held {now : Int} {rows : List (Bytes × StsRow)} :
    (heldRows (rows.map Prod.snd) = .unreadable →
      strongestSTSAlias canon now host rows = .error (.corrupt (canon host))) ∧
    ∀ record, heldRows (rows.map Prod.snd) = .holds record → record.readable = true ∧ ∃ chosen,
        strongestSTSAlias canon now host rows = .ok (chosen, record.revision) ∧
          { chosen with revision := record.revision } = record := by
  cases rows with
  | nil =>
    exact ⟨nofun, nofun⟩
  | cons row rows =>
    obtain ⟨key, row⟩ := row
    rw [map_cons, heldRows_cons]
    have decoded : decodeSTSPolicy (canon host) (some row) = _ := decodeSTSPolicy_row _ row
    unfold strongestSTSAlias
    rw [foldlM_cons]
    cases read : readRow row with
    | none =>
      rw [read] at decoded
      have stops : strongestRound canon now host none (key, row) =
          .error (.corrupt (canon host)) := by
        unfold strongestRound
        rw [decoded]
        rfl
      rw [stops]
      exact ⟨fun _ => rfl, nofun⟩
    | some first =>
      rw [read] at decoded
      obtain ⟨rfl, readable⟩ := filter_eq_some_iff.mp read
      have starts : strongestRound canon now host none (key, some first) =
          .ok (some (first.candidate now)) := by
        unfold strongestRound
        rw [decoded]
        rfl
      rw [starts]
      have loop := strongestLoop_tracks canon host now rows (tracks_candidate now readable)
      cases records : (rows.map Prod.snd).mapM readRow with
      | none =>
        rw [records] at loop
        refine ⟨fun _ => ?_, nofun⟩
        show foldlM _ _ rows >>= _ = _
        rw [show foldlM _ _ rows = _ from loop]
        rfl
      | some =>
        rw [records] at loop
        obtain ⟨last, ended, tracks⟩ := loop
        refine ⟨nofun, fun record same => ?_⟩
        cases same
        refine ⟨tracks.readable, last.chosen, ?_, tracks.chosen⟩
        show foldlM _ _ rows >>= _ = _
        rw [ended, ← tracks.revision]
        rfl

/-! ### Reads -/

variable {canon : Bytes → Bytes} {host spelling : Bytes} {next : StsTable}

theorem held_of_settled (fixed : canon host = host) (settled : Settled canon host table) :
    held canon host table = heldRows (table.lookup (stsKey canon host)).toList := by
  unfold held
  rw [stsAliases_of_settled fixed settled]
  cases table.lookup (stsKey canon host) <;> rfl

theorem heldRows_singleton (readable : record.readable = true) :
    heldRows [some record] = .holds record := by
  rw [heldRows_cons, readRow, filter_some, if_pos readable]
  rfl

theorem eq_of_heldRows_singleton {row : StsRow} (holds : heldRows [row] = .holds record) :
    row = some record ∧ record.readable = true := by
  rw [heldRows_cons] at holds
  cases read : readRow row with
  | none =>
    rw [read] at holds
    cases holds
  | some =>
    rw [read] at holds
    cases holds
    exact filter_eq_some_iff.mp read

theorem nextSTSRevision_eq_error {current : UInt64}
    (failed : nextSTSRevision current = .error reason) :
    reason = .exhausted ∧ current = maxUint64 := by
  unfold nextSTSRevision at failed
  split at failed
  next full =>
    cases failed
    exact ⟨rfl, full⟩
  · cases failed

theorem held_of_row (fixed : canon host = host) (settled : Settled canon host table)
    (row : table.lookup (stsKey canon host) = some (some record))
    (readable : record.readable = true) : held canon host table = .holds record := by
  rw [held_of_settled fixed settled, row]
  exact heldRows_singleton readable

theorem row_of_holds (fixed : canon host = host) (settled : Settled canon host table)
    (holds : held canon host table = .holds record) :
    table.lookup (stsKey canon host) = some (some record) ∧ record.readable = true := by
  rw [held_of_settled fixed settled] at holds
  cases row : table.lookup (stsKey canon host) with
  | none =>
    rw [row] at holds
    cases holds
  | some =>
    rw [row] at holds
    obtain ⟨rfl, readable⟩ := eq_of_heldRows_singleton holds
    exact ⟨rfl, readable⟩

theorem held_eq_absent : held canon host table = .absent ↔
    stsAliases canon host table = [] := by
  unfold held
  cases stsAliases canon host table with
  | nil => simp [heldRows]
  | cons row rows =>
    rw [map_cons, heldRows_cons]
    cases readRow row.2 with
    | none => simp
    | some => cases (rows.map Prod.snd).mapM readRow <;> simp

/-- The record is moved to the canonical key: it gets the next revision, and no other spelling is
left. -/
structure Migrates (canon : Bytes → Bytes) (host : Bytes) (table next : StsTable)
    (record migrated : StsRecord) : Prop where
  unsettled : ¬ Settled canon host table
  settled : Settled canon host next
  holds : held canon host table = .holds record
  revised : nextSTSRevision record.revision = .ok migrated.revision
  same : migrated = { record with revision := migrated.revision }
  row : next.lookup (stsKey canon host) = some (some migrated)
  readable : migrated.readable = true

inductive Reads (canon : Bytes → Bytes) (host : Bytes) (table : StsTable) :
    Option StsRow → StsTable → Prop
  | absent (nothing : held canon host table = .absent)
      (settled : Settled canon host table) : Reads canon host table none table
  | row {record : StsRecord} (holds : held canon host table = .holds record)
      (readable : record.readable = true) (settled : Settled canon host table)
      (row : table.lookup (stsKey canon host) = some (some record)) :
      Reads canon host table (some (some record)) table
  | migrated {record migrated : StsRecord} {next : StsTable}
      (migrates : Migrates canon host table next record migrated) :
      Reads canon host table (some (some migrated)) next

inductive ReadFails (canon : Bytes → Bytes) (host : Bytes) (env : StsEnv) (table : StsTable) :
    StsError → Prop
  | statement {failed : StsStatement} (fails : env.fault failed = true) :
      ReadFails canon host env table (.statement failed)
  | corrupt (unreadable : held canon host table = .unreadable) :
      ReadFails canon host env table (.corrupt host)
  | exhausted {record : StsRecord} (holds : held canon host table = .holds record)
      (unsettled : ¬ Settled canon host table) (full : record.revision = maxUint64) :
      ReadFails canon host env table .exhausted

theorem stsValueLocked_held (fixed : canon host = host) :
    wp (stsValueLocked canon env host) (Reads canon host table)
      (fun reason next => next = table ∧ ReadFails canon host env table reason) table := by
  obtain ⟨unreadable, holds⟩ := strongestSTSAlias_held canon
  unfold stsValueLocked
  rw [wp_bind]
  refine wp_stsAliasesLocked (fun fails => ⟨rfl, .statement fails⟩) ?_
  split
  next none =>
    exact .absent (held_eq_absent.mpr none) ((settled_iff fixed).mpr (.inl none))
  rename_i some_rows
  rw [wp_bind]
  cases found : held canon host table with
  | absent => exact absurd (held_eq_absent.mp found) some_rows
  | unreadable =>
    rw [unreadable found, fixed]
    exact ⟨rfl, .corrupt found⟩
  | holds record =>
    obtain ⟨readable, chosen, strongest, same⟩ := holds record found
    rw [strongest]
    show wp (if _ then _ else _) _ _ _
    split
    next one =>
      have settled := (settled_iff fixed).mpr (.inr one)
      obtain ⟨row, -⟩ := row_of_holds fixed settled found
      rw [stsAliases_of_settled fixed settled, row]
      exact .row found readable settled row
    next several =>
      have unsettled : ¬ Settled canon host table := fun settled =>
        ((settled_iff fixed).mp settled).elim some_rows several
      rw [wp_bind]
      refine wp_ofExcept (fun revision revised => ?_) fun reason full => ?_
      · rw [wp_bind]
        refine wp_writeSTSRecordLocked (fun fails => ⟨rfl, .statement fails⟩) ?_
        have migrated : ({ chosen with revision := revision } : StsRecord) =
            { record with revision := revision } :=
          congrArg (fun record : StsRecord => { record with revision := revision }) same
        rw [migrated]
        refine .migrated ⟨unsettled, settled_write (.inl rfl), found, revised, rfl,
          lookup_writeRows, ?_⟩
        exact readable_raised readable (UInt64.le_of_lt (lt_of_nextSTSRevision revised))
      · obtain ⟨rfl, exhausted⟩ := nextSTSRevision_eq_error full
        exact ⟨rfl, .exhausted found unsettled exhausted⟩

/-- The counters of a host: those of the record its rows amount to, and those of the canonical row
where they cannot be read. -/
def counters (canon : Bytes → Bytes) (host : Bytes) (table : StsTable) : UInt64 × UInt64 :=
  match held canon host table with
  | .holds record => (record.revision, record.policyEpoch)
  | _ => generations canon host table

theorem counters_of_holds (holds : held canon host table = .holds record) :
    counters canon host table = (record.revision, record.policyEpoch) := by
  rw [counters, holds]

section

variable (fixed : canon host = host)
include fixed

theorem counters_of_row (settled : Settled canon host table)
    (row : table.lookup (stsKey canon host) = some (some record)) :
    counters canon host table = (record.revision, record.policyEpoch) := by
  have raw : generations canon host table = (record.revision, record.policyEpoch) := by
    rw [generations, row]
  cases found : held canon host table with
  | holds =>
    have same := (row_of_holds fixed settled found).1
    rw [row] at same
    rw [counters_of_holds found, some.inj (some.inj same)]
  | absent | unreadable =>
    rw [counters, found]
    exact raw

theorem lookup_of_absent (nothing : held canon host table = .absent) :
    table.lookup (stsKey canon host) = none := by
  have settled := (settled_iff fixed).mpr (.inl (held_eq_absent.mp nothing))
  have rows := stsAliases_of_settled fixed settled
  rw [held_eq_absent.mp nothing] at rows
  cases row : table.lookup (stsKey canon host) with
  | none => rfl
  | some =>
    rw [row] at rows
    cases rows

theorem counters_of_absent
    (nothing : held canon host table = .absent) : counters canon host table = (0, 0) := by
  rw [counters, nothing]
  rw [generations, lookup_of_absent fixed nothing]

end

def Leaves (canon : Bytes → Bytes) (host : Bytes) (table next : StsTable) : Prop :=
  next = table ∨ ∃ record migrated, Migrates canon host table next record migrated

theorem Leaves.same (leaves : Leaves canon host table next)
    (settled : Settled canon host table) : next = table := by
  rcases leaves with same | ⟨_, _, migrates⟩
  · exact same
  · exact absurd settled migrates.unsettled

theorem Reads.leaves (reads : Reads canon host table value next) :
    Leaves canon host table next := by
  cases reads with
  | absent | row => exact .inl rfl
  | migrated migrates => exact .inr ⟨_, _, migrates⟩

theorem Reads.settled (reads : Reads canon host table value next) : Settled canon host next := by
  cases reads with
  | absent nothing settled | row holds readable settled row => exact settled
  | migrated migrates => exact migrates.settled

theorem Migrates.held_next (fixed : canon host = host) {migrated : StsRecord}
    (migrates : Migrates canon host table next record migrated) :
    held canon host next = .holds migrated :=
  held_of_row fixed migrates.settled migrates.row migrates.readable

/-! ### Updates -/

/-- A set or a clear repairs the rows: they cannot be read, or a counter is at its maximum, also
once moved to the canonical key. -/
def Repairable (canon : Bytes → Bytes) (host : Bytes) (table : StsTable) : Prop :=
  held canon host table = .unreadable ∨
    ∃ record, held canon host table = .holds record ∧
      (record.revision = maxUint64 ∨ record.policyEpoch = maxUint64 ∨
        ¬ Settled canon host table ∧ nextSTSRevision record.revision = .ok maxUint64)

inductive Starts (canon : Bytes → Bytes) (host : Bytes) (env : StsEnv) (table : StsTable) :
    Option UInt64 → StsRecord → Bool → Prop
  | absent {expected : Option UInt64} (nothing : held canon host table = .absent) :
      Starts canon host env table expected {} false
  | row {expected : Option UInt64} {record : StsRecord}
      (holds : held canon host table = .holds record)
      (settled : Settled canon host table) :
      Starts canon host env table expected record true
  | migrated {expected : Option UInt64} {record : StsRecord} {revision : UInt64}
      (holds : held canon host table = .holds record)
      (unsettled : ¬ Settled canon host table)
      (revised : nextSTSRevision record.revision = .ok revision) :
      Starts canon host env table expected { record with revision := revision } true
  | minted {current : StsRecord} {present : Bool} {draws : UInt64 × UInt64}
      (repairable : Repairable canon host table) (drawn : env.entropy = some draws)
      (revision : current.revision = freshSTSGeneration draws.1)
      (epoch : current.policyEpoch = freshSTSGeneration draws.2) :
      Starts canon host env table none current present

inductive UpdateFails (canon : Bytes → Bytes) (host : Bytes) (env : StsEnv) (table : StsTable)
    (expected : Option UInt64)
    (makeRecord : StsRecord → Bool → Except StsError (Option StsRecord)) : StsError → Prop
  | statement {failed : StsStatement} (fails : env.fault failed = true) :
      UpdateFails canon host env table expected makeRecord (.statement failed)
  | entropy (none : env.entropy = none) :
      UpdateFails canon host env table expected makeRecord .entropy
  | read {reason : StsError} (conditional : expected ≠ none)
      (fails : ReadFails canon host env table reason) :
      UpdateFails canon host env table expected makeRecord reason
  | record {reason : StsError} {current : StsRecord} {present : Bool}
      (room : expected = none → current.revision ≠ maxUint64 ∧ current.policyEpoch ≠ maxUint64)
      (fails : makeRecord current present = .error reason) :
      UpdateFails canon host env table expected makeRecord reason

theorem freshSTSGeneration_ne_max {raw : UInt64} : freshSTSGeneration raw ≠ maxUint64 := by
  have below : (freshSTSGeneration raw).toNat < 2 ^ 63 := by
    rw [freshSTSGeneration, UInt64.toNat_or, UInt64.toNat_and]
    refine Nat.or_lt_two_pow ?_ (by decide)
    exact Nat.lt_of_le_of_lt Nat.and_le_right (by decide)
  intro full
  rw [full] at below
  exact absurd below (by decide)

theorem freshSTSGenerationPair_eq_error (failed : freshSTSGenerationPair env = .error reason) :
    reason = .entropy ∧ env.entropy = none := by
  unfold freshSTSGenerationPair at failed
  split at failed
  · cases failed
  next none =>
    cases failed
    exact ⟨rfl, none⟩

theorem locked_congr (named : canon name = canon host) :
    stsValueLocked canon env name = stsValueLocked canon env host ∧
    prepareSTSRepairLocked canon env name = prepareSTSRepairLocked canon env host ∧
    ∀ statement record rows, writeSTSRecordLocked canon env statement name record rows =
      writeSTSRecordLocked canon env statement host record rows := by
  unfold stsValueLocked prepareSTSRepairLocked stsAliasesLocked stsAliases Spells strongestSTSAlias
    strongestRound writeSTSRecordLocked writeRows stsKey
  rw [named]
  exact ⟨rfl, rfl, fun _ _ _ => rfl⟩

theorem currentSTSLocked_held (fixed : canon host = host) (named : canon name = host)
    (makeRecord : StsRecord → Bool → Except StsError (Option StsRecord)) :
    wp (currentSTSLocked canon env name expected)
      (fun start next => Leaves canon host table next ∧
        (start.2.2 = stsAliases canon host next ∨ Settled canon host next) ∧
          Starts canon host env table expected start.1 start.2.1 ∧
            (expected ≠ none → Settled canon host next ∧
              start.1.revision = (counters canon host next).1 ∧
                held canon host table ≠ .unreadable))
      (fun reason next => Leaves canon host table next ∧
        UpdateFails canon host env table expected makeRecord reason) table := by
  obtain ⟨reading, preparing, -⟩ := locked_congr (named.trans fixed.symm)
  unfold currentSTSLocked
  rw [reading, preparing, wp_bind, wp_tryCatch, map_eq_pure_bind, wp_bind]
  refine wp_mono (stsValueLocked_held fixed) ?_ ?_
  · intro value next reads
    have leaves := reads.leaves
    have settled := reads.settled
    rw [wp_pure]
    cases reads with
    | absent nothing =>
      refine ⟨leaves, .inr settled, .absent nothing, fun _ => ⟨settled, ?_, ?_⟩⟩
      · rw [counters_of_absent fixed nothing]
      · rw [nothing]
        exact nofun
    | row holds _ _ row =>
      refine ⟨leaves, .inr settled, .row holds settled, fun _ => ⟨settled, ?_, ?_⟩⟩
      · rw [counters_of_row fixed settled row]
      · rw [holds]
        exact nofun
    | migrated migrates =>
      refine ⟨leaves, .inr settled, ?_, fun _ => ⟨settled, ?_, ?_⟩⟩
      rotate_left
      · rw [counters_of_row fixed settled migrates.row]
      · rw [migrates.holds]
        exact nofun
      rw [migrates.same]
      exact .migrated migrates.holds migrates.unsettled migrates.revised
  · rintro reason next ⟨rfl, fails⟩
    split
    next repairs =>
      rw [wp_pure]
      unfold stsReadErrorRepairable at repairs
      obtain ⟨unconditional, kind⟩ := Bool.and_eq_true_iff.mp repairs
      obtain rfl := isNone_iff_eq_none.mp unconditional
      have repairable : Repairable canon host next := by
        cases fails with
        | statement => cases kind
        | corrupt unreadable => exact .inl unreadable
        | exhausted holds _ full => exact .inr ⟨_, holds, .inl full⟩
      unfold prepareSTSRepairLocked
      rw [wp_bind, wp_bind]
      refine wp_stsAliasesLocked (fun fails => ⟨.inl rfl, .statement fails⟩) ?_
      rw [wp_bind]
      refine wp_ofExcept (fun pair drawn => ?_) fun reason failed => ?_
      · obtain ⟨_, entropy, revision, epoch⟩ := freshSTSGenerationPair_eq_ok drawn
        exact ⟨.inl rfl, .inl rfl, .minted repairable entropy revision epoch,
          fun impossible => absurd rfl impossible⟩
      · obtain ⟨rfl, none⟩ := freshSTSGenerationPair_eq_error failed
        exact ⟨.inl rfl, .entropy none⟩
    next refused =>
      refine ⟨.inl rfl, ?_⟩
      cases fails with
      | statement fails => exact .statement fails
      | corrupt unreadable =>
        exact .read (fun same => refused (by rw [same]; rfl)) (.corrupt unreadable)
      | exhausted holds unsettled full =>
        exact .read (fun same => refused (by rw [same]; rfl)) (.exhausted holds unsettled full)

theorem remint_eq_error
    (failed : remintExhaustedSTSGenerations env expected current = .error reason) :
    reason = .entropy ∧ env.entropy = none := by
  unfold remintExhaustedSTSGenerations at failed
  split at failed
  · cases drawn : freshSTSGenerationPair env with
    | error =>
      rw [drawn] at failed
      cases failed
      exact freshSTSGenerationPair_eq_error drawn
    | ok =>
      rw [drawn] at failed
      cases failed
  · cases failed

theorem Starts.remint {reminted : StsRecord} {present : Bool}
    (starts : Starts canon host env table expected current present)
    (done : remintExhaustedSTSGenerations env expected current = .ok reminted) :
    Starts canon host env table expected reminted present ∧
      (expected = none → reminted.revision ≠ maxUint64 ∧ reminted.policyEpoch ≠ maxUint64) ∧
        (expected ≠ none → reminted = current) := by
  unfold remintExhaustedSTSGenerations at done
  split at done
  next exhausted =>
    obtain rfl := isNone_iff_eq_none.mp exhausted.1
    cases drawn : freshSTSGenerationPair env with
    | error =>
      rw [drawn] at done
      cases done
    | ok pair =>
      rw [drawn] at done
      obtain rfl := Except.ok.inj done
      obtain ⟨_, entropy, revision, epoch⟩ := freshSTSGenerationPair_eq_ok drawn
      have repairable : Repairable canon host table := by
        cases starts with
        | absent => exact absurd exhausted.2 (by decide)
        | row holds =>
          exact .inr ⟨_, holds, exhausted.2.elim .inl fun epoch => .inr (.inl epoch)⟩
        | migrated holds unsettled revised =>
          refine .inr ⟨_, holds, .inr (exhausted.2.elim (fun full => ?_) .inl)⟩
          exact .inr ⟨unsettled, full ▸ revised⟩
        | minted repairable => exact repairable
      refine ⟨.minted repairable entropy revision epoch, fun _ => ?_,
        fun impossible => absurd rfl impossible⟩
      rw [show pair.1 = _ from revision, show pair.2 = _ from epoch]
      exact ⟨freshSTSGeneration_ne_max, freshSTSGeneration_ne_max⟩
  next room =>
    obtain rfl := Except.ok.inj done
    refine ⟨starts, fun unconditional => ?_, fun _ => rfl⟩
    rw [unconditional] at room
    exact not_or.mp fun full => room ⟨rfl, full⟩

theorem updateSTS_held (fixed : canon host = host) (spelled : canon (canon spelling) = host)
    (makeRecord : StsRecord → Bool → Except StsError (Option StsRecord)) :
    wp (updateSTS canon env spelling expected makeRecord) (fun result next =>
        (result.2.2 = true → Settled canon host next ∧ ∃ current present record,
          Starts canon host env table expected current present ∧
            makeRecord current present = .ok (some record) ∧
              next.lookup (stsKey canon host) = some (some record) ∧
                result.1 = record.revision ∧ result.2.1 = record.policyEpoch ∧
                  ∀ revision, expected = some revision → current.revision = revision) ∧
        (result.2.2 = false → Leaves canon host table next ∧
          (expected ≠ none → Settled canon host next ∧
            result.1 = (counters canon host next).1 ∧ held canon host table ≠ .unreadable) ∧
          (expected = none → ∃ current present, makeRecord current present = .ok none)))
      (fun reason next => Leaves canon host table next ∧
        UpdateFails canon host env table expected makeRecord reason) table := by
  obtain ⟨-, -, writing⟩ := locked_congr (spelled.trans fixed.symm)
  unfold updateSTS
  refine wp_seq (currentSTSLocked_held fixed spelled makeRecord) ?_ fun _ _ failed => failed
  rintro ⟨current, present, _⟩ next ⟨leaves, listed, starts, conditional⟩
  dsimp only
  split
  next differs =>
    refine ⟨nofun, fun _ => ⟨leaves, conditional, fun unconditional => ?_⟩⟩
    rw [unconditional] at differs
    cases differs.1
  rename_i matches_expected
  rw [wp_bind]
  refine wp_ofExcept (fun reminted done => ?_) fun reason failed => ?_
  · obtain ⟨startsAgain, room, kept⟩ := starts.remint done
    rw [wp_bind]
    refine wp_ofExcept (fun made making => ?_) fun reason failed =>
      ⟨leaves, .record room failed⟩
    cases made with
    | none =>
      refine ⟨nofun, fun _ => ⟨leaves, fun some_ => ?_, fun _ => ⟨reminted, present, making⟩⟩⟩
      rw [kept some_]
      exact conditional some_
    | some record =>
      rw [wp_bind, writing]
      refine wp_writeSTSRecordLocked (fun fails => ⟨leaves, .statement fails⟩) ?_
      refine ⟨fun _ => ⟨settled_write listed, reminted, present, record, startsAgain, making,
        lookup_writeRows, rfl, rfl, ?_⟩, nofun⟩
      rintro revision rfl
      rw [kept nofun]
      by_contra other
      exact matches_expected ⟨rfl, fun held => other (some.inj held).symm⟩
  · obtain ⟨rfl, none⟩ := remint_eq_error failed
    exact ⟨leaves, .entropy none⟩

/-! ### Operations under any spelling -/

theorem stsPolicy_held (fixed : canon host = host)
    (spelled : canon (canon spelling) = host) (env : StsEnv) (table : StsTable) :
    wp (stsPolicy canon env spelling)
      (fun policy next => Leaves canon host table next ∧ Settled canon host next ∧
        (held canon host next = .absent ∧ policy = {} ∨
          ∃ record, held canon host next = .holds record ∧ policy = record.policy))
      (fun reason next => next = table ∧ ReadFails canon host env table reason) table := by
  unfold stsPolicy
  dsimp only
  rw [(locked_congr (spelled.trans fixed.symm)).1, wp_bind]
  refine wp_mono (stsValueLocked_held fixed) ?_ fun _ _ failed => failed
  intro value next reads
  have leaves := reads.leaves
  have settled := reads.settled
  have decodes : ∀ record : StsRecord, record.readable = true →
      held canon host next = .holds record →
      wp (ofExcept (decodeSTSPolicy (canon spelling) (some (some record))))
        (fun policy next => Leaves canon host table next ∧ Settled canon host next ∧
          (held canon host next = .absent ∧ policy = {} ∨
            ∃ record, held canon host next = .holds record ∧ policy = record.policy))
        (fun reason next => next = table ∧ ReadFails canon host env table reason) next := by
    intro record readable holds
    rw [decodeSTSPolicy_record, if_pos readable]
    exact ⟨leaves, settled, .inr ⟨record, holds, rfl⟩⟩
  cases reads with
  | absent nothing => exact ⟨leaves, settled, .inl ⟨nothing, rfl⟩⟩
  | row holds readable => exact decodes _ readable holds
  | migrated migrates => exact decodes _ migrates.readable (migrates.held_next fixed)

def Renews (canon : Bytes → Bytes) (host : Bytes) (env : StsEnv) (table : StsTable)
    (revision epoch : UInt64) : Prop :=
  ∃ current present, Starts canon host env table none current present ∧
    nextSTSRevision current.revision = .ok revision ∧
      nextSTSRevision current.policyEpoch = .ok epoch

theorem updateSTS_renews (fixed : canon host = host) (spelled : canon (canon spelling) = host)
    {makeRecord : StsRecord → Bool → Except StsError (Option StsRecord)}
    {shape : UInt64 → UInt64 → StsRecord}
    (makes : ∀ current present, makeRecord current present = do
        let revision ← nextSTSRevision current.revision
        let epoch ← nextSTSRevision current.policyEpoch
        return some (shape revision epoch))
    (counts : ∀ revision epoch,
      (shape revision epoch).revision = revision ∧ (shape revision epoch).policyEpoch = epoch) :
    wp (updateSTS canon env spelling none makeRecord)
      (fun result next => Settled canon host next ∧
        next.lookup (stsKey canon host) = some (some (shape result.1 result.2.1)) ∧
          Renews canon host env table result.1 result.2.1)
      (fun reason next => Leaves canon host table next ∧
        ((∃ failed, reason = .statement failed ∧ env.fault failed = true) ∨
          reason = .entropy ∧ env.entropy = none)) table := by
  refine wp_mono (updateSTS_held fixed spelled makeRecord) ?_ ?_
  · rintro ⟨_, _, applied⟩ next ⟨writes, leaves⟩
    cases applied with
    | false =>
      obtain ⟨current, present, making⟩ := (leaves rfl).2.2 rfl
      rw [makes] at making
      obtain ⟨_, _, _, _, made⟩ | ⟨-, failed⟩ := renewal current shape
      · cases making.symm.trans made
      · cases making.symm.trans failed
    | true =>
      obtain ⟨settled, current, present, record, starts, making, row, rfl, rfl, -⟩ := writes rfl
      rw [makes] at making
      obtain ⟨revision, epoch, revised, renewed, made⟩ | ⟨-, failed⟩ := renewal current shape
      rotate_left
      · cases making.symm.trans failed
      obtain rfl := some.inj (Except.ok.inj (making.symm.trans made))
      rw [(counts revision epoch).1, (counts revision epoch).2]
      exact ⟨settled, row, current, present, starts, revised, renewed⟩
  · rintro reason next ⟨leaves, fails⟩
    refine ⟨leaves, ?_⟩
    cases fails with
    | statement fails => exact .inl ⟨_, rfl, fails⟩
    | entropy none => exact .inr ⟨rfl, none⟩
    | read conditional => exact absurd rfl conditional
    | @record _ current _ room failed =>
      obtain ⟨revisionRoom, epochRoom⟩ := room rfl
      rw [makes] at failed
      obtain ⟨_, _, _, _, made⟩ | ⟨full, -⟩ := renewal current shape
      · cases failed.symm.trans made
      · exact (full.elim revisionRoom epochRoom).elim

/-- The record `SetSTSPolicy` writes. -/
def policyRecord (port expiry duration : Int) (revision epoch : UInt64) : StsRecord where
  port := port
  untilMs := some (unixMilli expiry)
  duration := some (clampSTSDuration duration)
  revision := revision
  policyEpoch := epoch

theorem setSTSPolicy_held (fixed : canon host = host) (spelled : canon (canon spelling) = host)
    (env : StsEnv) (port expiry duration : Int) (table : StsTable) :
    wp (setSTSPolicy canon env spelling port expiry duration)
      (fun result next => Settled canon host next ∧ next.lookup (stsKey canon host) =
          some (some (policyRecord port expiry duration result.1 result.2)) ∧
          Renews canon host env table result.1 result.2 ∧
            (0 < port ∧ port ≤ 65535 ∧ 0 < unixMilli expiry))
      (fun reason next => Leaves canon host table next ∧
        (0 < port ∧ port ≤ 65535 ∧ 0 < unixMilli expiry →
          (∃ failed, reason = .statement failed ∧ env.fault failed = true) ∨
            reason = .entropy ∧ env.entropy = none)) table := by
  unfold setSTSPolicy
  split
  next invalid =>
    refine ⟨.inl rfl, fun valid => ?_⟩
    omega
  rename_i valid
  rw [not_or, not_or, not_le, not_lt, not_le] at valid
  refine wp_seq (updateSTS_renews fixed spelled (fun _ _ => rfl) fun _ _ => ⟨rfl, rfl⟩) ?_ ?_
  · rintro result next ⟨settled, row, renews⟩
    exact ⟨settled, row, renews, valid⟩
  · rintro reason next ⟨leaves, fails⟩
    exact ⟨leaves, fun _ => fails⟩

theorem tombstone_readable (renews : Renews canon host env table revision epoch) :
    StsRecord.readable { revision := revision, policyEpoch := epoch, disabled := true } = true := by
  obtain ⟨_, _, -, revised, -⟩ := renews
  have above := lt_of_nextSTSRevision revised
  refine bne_iff_ne.mpr ?_
  rintro rfl
  exact UInt64.not_lt_zero above

theorem clearSTSPolicy_held (fixed : canon host = host)
    (spelled : canon (canon spelling) = host) (env : StsEnv) (table : StsTable) :
    wp (clearSTSPolicy canon env spelling) (fun result next => Settled canon host next ∧
        next.lookup (stsKey canon host) = some (some
          { revision := result.1, policyEpoch := result.2, disabled := true }) ∧
          Renews canon host env table result.1 result.2)
      (fun reason next => Leaves canon host table next ∧
        ((∃ failed, reason = .statement failed ∧ env.fault failed = true) ∨
          reason = .entropy ∧ env.entropy = none)) table := by
  unfold clearSTSPolicy
  exact wp_seq (updateSTS_renews fixed spelled (fun _ _ => rfl)
    fun _ _ => ⟨rfl, rfl⟩) (fun _ _ => id) fun _ _ failed => failed

theorem rescheduleSTSPolicy_held (fixed : canon host = host)
    (spelled : canon (canon spelling) = host) (env : StsEnv) (expected : UInt64)
    (expiry : Int) (table : StsTable) :
    wp (rescheduleSTSPolicy canon env spelling expected expiry)
      (fun result next => Settled canon host next ∧ (result.2 = true → ∃ current,
          Starts canon host env table (some expected) current true ∧
            current.revision = expected ∧ current.Reschedulable ∧
              nextSTSRevision current.revision = .ok result.1 ∧
                next.lookup (stsKey canon host) = some (some
                  { current with untilMs := some (unixMilli expiry), revision := result.1 })) ∧
        (result.2 = false → Leaves canon host table next ∧
          result.1 = (counters canon host next).1 ∧ held canon host table ≠ .unreadable))
      (fun _ next => Leaves canon host table next) table := by
  unfold rescheduleSTSPolicy
  refine wp_seq (updateSTS_held fixed spelled
    (rescheduledRecord canon spelling expiry)) ?_ fun _ _ failed => failed.1
  rintro ⟨_, _, applied⟩ next ⟨writes, leaves⟩
  cases applied with
  | false =>
    obtain ⟨left, conditional, -⟩ := leaves rfl
    obtain ⟨settled, same⟩ := conditional nofun
    exact ⟨settled, nofun, fun _ => ⟨left, same⟩⟩
  | true =>
    obtain ⟨settled, current, _, record, starts, making, row, rfl, -, matched⟩ := writes rfl
    obtain ⟨rfl, reschedulable, revision, revised, rfl⟩ := rescheduledRecord_eq_some making
    exact ⟨settled, fun _ => ⟨current, starts, matched expected rfl, reschedulable, revised, row⟩,
      nofun⟩

/-! ### A settled host -/

section

variable (fixed : canon host = host)
include fixed

theorem stsPolicy_spec (env : StsEnv) (table : StsTable) :
    wp (stsPolicy canon env host) (fun policy next => Settled canon host next ∧
        decodeSTSPolicy host (next.lookup (stsKey canon host)) = .ok policy ∧
          (Settled canon host table → next = table))
      (fun _ next => Settled canon host table → next = table) table := by
  refine wp_mono (stsPolicy_held fixed (by rw [fixed, fixed]) env table) ?_
    fun _ _ failed _ => failed.1
  rintro policy next ⟨leaves, settled, found⟩
  refine ⟨settled, ?_, leaves.same⟩
  rcases found with ⟨nothing, rfl⟩ | ⟨_, holds, rfl⟩
  · rw [lookup_of_absent fixed nothing]
    rfl
  · obtain ⟨row, readable⟩ := row_of_holds fixed settled holds
    rw [row, decodeSTSPolicy_record, if_pos readable]

omit fixed in
theorem ne_max_of_nextSTSRevision {current : UInt64}
    (counted : nextSTSRevision current = .ok revision) : current ≠ maxUint64 := by
  rintro rfl
  rw [nextSTSRevision, if_pos rfl] at counted
  cases counted

/-- A renewal counts on from the stored counters, or repairs and counts on from a draw. -/
theorem Renews.counters (renews : Renews canon host env table revision epoch) :
    (¬ Repairable canon host table ∧
      (counters canon host table).1 < revision ∧ (counters canon host table).2 < epoch ∧
      (Settled canon host table →
        revision.toNat = (counters canon host table).1.toNat + 1)) ∨
      Repairable canon host table ∧ ∃ draws, env.entropy = some draws ∧
        revision.toNat = (freshSTSGeneration draws.1).toNat + 1 ∧
          freshSTSGeneration draws.2 < epoch := by
  obtain ⟨_, _, starts, revised, renewed⟩ := renews
  have above := lt_of_nextSTSRevision revised
  have newer := lt_of_nextSTSRevision renewed
  have counted := toNat_of_nextSTSRevision revised
  -- a counter that was raised was not at its maximum
  have below := ne_max_of_nextSTSRevision revised
  have short := ne_max_of_nextSTSRevision renewed
  cases starts with
  | absent nothing =>
    rw [counters_of_absent fixed nothing]
    refine .inl ⟨?_, above, newer, fun _ => counted⟩
    unfold Repairable
    rw [nothing]
    exact fun repairable => by simp at repairable
  | row holds settled =>
    rw [counters_of_holds holds]
    refine .inl ⟨?_, above, newer, fun _ => counted⟩
    unfold Repairable
    rw [holds]
    simp [below, short, settled]
  | migrated holds unsettled moved =>
    rw [counters_of_holds holds]
    refine .inl ⟨?_, UInt64.lt_trans (lt_of_nextSTSRevision moved) above, newer,
      fun settled => absurd settled unsettled⟩
    unfold Repairable
    rw [holds]
    simp [ne_max_of_nextSTSRevision moved, short, moved, below]
  | minted repairable drawn first second =>
    exact .inr ⟨repairable, _, drawn, first ▸ counted, second ▸ newer⟩

theorem counters_of_settled (settled : Settled canon host table) :
    counters canon host table = generations canon host table := by
  cases found : held canon host table with
  | absent | unreadable => rw [counters, found]
  | holds =>
    rw [counters_of_holds found, generations, (row_of_holds fixed settled found).1]

/-- Counters that are above those of the row, or above those drawn for its repair. -/
def Advances (canon : Bytes → Bytes) (env : StsEnv) (host : Bytes) (table : StsTable)
    (revision epoch : UInt64) : Prop :=
  ((generations canon host table).1 < revision ∧
      (generations canon host table).2 < epoch) ∨
    Repairable canon host table ∧ ∃ draws, env.entropy = some draws ∧
      freshSTSGeneration draws.1 < revision ∧ freshSTSGeneration draws.2 < epoch

theorem Renews.advances (settled : Settled canon host table)
    (renews : Renews canon host env table revision epoch) :
    Advances canon env host table revision epoch := by
  have stored := counters_of_settled fixed settled
  rcases renews.counters fixed with
    ⟨-, above, newer, -⟩ | ⟨repairable, draws, drawn, counted, newer⟩
  · exact .inl (stored ▸ ⟨above, newer⟩)
  · refine .inr ⟨repairable, draws, drawn, ?_, newer⟩
    rw [UInt64.lt_iff_toNat_lt, counted]
    exact Nat.lt_succ_self _

theorem setSTSPolicy_spec (env : StsEnv) (port expiry duration : Int) (table : StsTable) :
    wp (setSTSPolicy canon env host port expiry duration)
      (fun result next => Settled canon host next ∧ next.lookup (stsKey canon host) =
          some (some (policyRecord port expiry duration result.1 result.2)) ∧
          (0 < port ∧ port ≤ 65535 ∧ 0 < unixMilli expiry) ∧ (Settled canon host table →
              Advances canon env host table result.1 result.2))
      (fun _ next => Settled canon host table → next = table) table := by
  refine wp_mono (setSTSPolicy_held fixed (by rw [fixed, fixed]) env port expiry duration table) ?_
    fun _ _ failed => failed.1.same
  rintro result next ⟨settled, row, renews, valid⟩
  exact ⟨settled, row, valid, fun before => renews.advances fixed before⟩

theorem clearSTSPolicy_spec (env : StsEnv) (table : StsTable) :
    wp (clearSTSPolicy canon env host) (fun result next => Settled canon host next ∧
        next.lookup (stsKey canon host) = some (some
          { revision := result.1, policyEpoch := result.2, disabled := true }) ∧
          (Settled canon host table → Advances canon env host table result.1 result.2))
      (fun _ next => Settled canon host table → next = table) table := by
  refine wp_mono (clearSTSPolicy_held fixed (by rw [fixed, fixed]) env table) ?_
    fun _ _ failed => failed.1.same
  rintro result next ⟨settled, row, renews⟩
  exact ⟨settled, row, fun before => renews.advances fixed before⟩

theorem rescheduleSTSPolicy_spec (env : StsEnv) (expected : UInt64) (expiry : Int)
    (settled : Settled canon host table) :
    wp (rescheduleSTSPolicy canon env host expected expiry) (fun result next =>
        (result.2 = true → Settled canon host next ∧
          ∃ current : StsRecord, table.lookup (stsKey canon host) = some (some current) ∧
            current.revision = expected ∧ current.Reschedulable ∧ expected < result.1 ∧
              next.lookup (stsKey canon host) = some (some
                { current with untilMs := some (unixMilli expiry), revision := result.1 })) ∧
        (result.2 = false → next = table))
      (fun _ next => next = table) table := by
  refine wp_mono (rescheduleSTSPolicy_held fixed (by rw [fixed, fixed]) env expected expiry table)
    ?_ fun _ _ leaves => leaves.same settled
  rintro result next ⟨settledNext, applied, skipped⟩
  refine ⟨fun flag => ⟨settledNext, ?_⟩, fun flag => (skipped flag).1.same settled⟩
  obtain ⟨current, starts, rfl, reschedulable, revised, row⟩ := applied flag
  cases starts with
  | row holds =>
    exact ⟨current, (row_of_holds fixed settled holds).1, rfl, reschedulable,
      lt_of_nextSTSRevision revised, row⟩
  | migrated _ unsettled => exact absurd settled unsettled

end

/-- `canonicalSTSHost` on names that are not addresses and are in lower case. -/
def plainHost : Bytes → Bytes := canonicalSTSHost (fun _ => none) id

end Ircthing.Store
