/-
This file models the persistence of strict transport security policies on the settings table. The
texts are read as JSON, `none` standing for one that is no record, and the canonical spelling of a
host is a parameter.
-/

import Ircthing.Golang.Strconv
import Ircthing.Library.Dict
import Ircthing.Library.Effect
import Ircthing.Store.Schema

namespace Ircthing.Store

open Library Effect List Dict

variable {present : Bool} {host key : Bytes} {expected : Option UInt64}

/-! ### Records -/

/-- `stsRecord`. An absent pointer field is `none`. -/
structure StsRecord where
  port : Int := 0
  untilMs : Option Int := none
  duration : Option Int := none
  revision : UInt64 := 0
  policyEpoch : UInt64 := 0
  disabled : Bool := false
deriving DecidableEq

variable {current record : StsRecord}

abbrev StsRow := Option StsRecord

variable {rows : List (Bytes × StsRow)} {value : StsRow}

/-- The rows of `settings` whose keys match `sts:%`. -/
abbrev StsTable := Dict Bytes StsRow

inductive StsStatement
  | selectAliases | writeMigrated | reselectAliases | writeRecord
deriving DecidableEq

inductive StsError
  | statement (failed : StsStatement)
  | corrupt (host : Bytes)
  | exhausted
  | entropy
  | invalid
deriving DecidableEq

/-- What an operation takes from outside: the clock, which statements fail, and the two draws
of `crypto/rand`, `none` when there is no entropy. -/
structure StsEnv where
  now : Int
  fault : StsStatement → Bool
  entropy : Option (UInt64 × UInt64)

abbrev StsAction := Effect StsError StsTable

structure StsPolicy where
  port : Int := 0
  expiry : Int := zeroTime
  duration : Int := 0
  revision : UInt64 := 0
  policyEpoch : UInt64 := 0
  ok : Bool := false
deriving DecidableEq

def maxSTSDurationMs : Int := 100 * 365 * 24 * 60 * 60 * 1000

def StsRecord.decodedDuration (record : StsRecord) : Int :=
  match record.duration with
  | some milliseconds =>
    if 1 ≤ milliseconds ∧ milliseconds ≤ maxSTSDurationMs then milliseconds * 10 ^ 6 else 0
  | none => 0

def decodeSTSPolicy (host : Bytes) : Option StsRow → Except StsError StsPolicy
  | none => .ok {}
  | some none => .error (.corrupt host)
  | some (some record) =>
    if record.disabled then
      if record.revision = 0 then .error (.corrupt host)
      else .ok { revision := record.revision, policyEpoch := record.policyEpoch }
    else
      match record.untilMs with
      | none => .error (.corrupt host)
      | some untilMs =>
        if record.port ≤ 0 ∨ 65535 < record.port ∨ untilMs ≤ 0 then .error (.corrupt host)
        else .ok
          { port := record.port, expiry := ofUnixMilli untilMs,
            duration := record.decodedDuration, revision := record.revision,
            policyEpoch := record.policyEpoch, ok := true }

/-! ### Counters -/

def maxUint64 : UInt64 := 0xFFFFFFFFFFFFFFFF

def nextSTSRevision (current : UInt64) : Except StsError UInt64 :=
  if current = maxUint64 then .error .exhausted else .ok (current + 1)

/-- `freshSTSGeneration` of eight random bytes: a value of at least `2 ^ 62` and below
`2 ^ 63`. -/
def freshSTSGeneration (raw : UInt64) : UInt64 :=
  (raw &&& 0x3FFFFFFFFFFFFFFF) ||| 0x4000000000000000

def freshSTSGenerationPair (env : StsEnv) : Except StsError (UInt64 × UInt64) :=
  match env.entropy with
  | some (first, second) => .ok (freshSTSGeneration first, freshSTSGeneration second)
  | none => .error .entropy

theorem toNat_of_nextSTSRevision {current next : UInt64}
    (counted : nextSTSRevision current = .ok next) : next.toNat = current.toNat + 1 := by
  unfold nextSTSRevision at counted
  split at counted
  · cases counted
  next below =>
    obtain rfl := Except.ok.inj counted
    have notFull : current.toNat ≠ maxUint64.toNat := fun full => below (UInt64.toNat_inj.mp full)
    have bound := current.toNat_lt
    have full : maxUint64.toNat = 2 ^ 64 - 1 := rfl
    rw [UInt64.toNat_add, UInt64.toNat_one]
    omega

theorem lt_of_nextSTSRevision {current next : UInt64}
    (counted : nextSTSRevision current = .ok next) : current < next := by
  rw [UInt64.lt_iff_toNat_lt, toNat_of_nextSTSRevision counted]
  exact Nat.lt_succ_self _

/-! ### Spellings of a host -/

/-- `canonicalSTSHost`, where `address` gives the canonical text of what `netip.ParseAddr`
accepts. -/
def canonicalSTSHost (address : Bytes → Option Bytes) (lowerRune : Nat → Nat) (host : Bytes) :
    Bytes :=
  let host := trimSuffix (trimSpace host) (lit ".")
  (address host).getD (toLower lowerRune host)

variable (canon : Bytes → Bytes) {table : StsTable} {statement : StsStatement}
  {failed : StsError → StsTable → Prop}

def stsKey (host : Bytes) : Bytes := lit "sts:" ++ canon host

def Spells (host key : Bytes) : Bool :=
  canon (trimPrefix key (lit "sts:")) == canon host

def stsAliases (host : Bytes) (table : StsTable) : List (Bytes × StsRow) :=
  (table.entries.filter fun row => Spells canon host row.1).map fun row => (row.1, row.2)

def stsAliasesLocked (env : StsEnv) (statement : StsStatement) (host : Bytes) :
    StsAction (List (Bytes × StsRow)) := do
  if env.fault statement then throw (.statement statement)
  return stsAliases canon host (← get)

/-- The state of the loop of `strongestSTSAlias` after its first round. -/
structure StrongestAlias where
  chosen : StsRecord
  chosenActive : Bool
  chosenUntil : Int
  maxRevision : UInt64
deriving DecidableEq

/-- One round of the loop of `strongestSTSAlias`; there is nothing to beat in the first. -/
def strongestRound (now : Int) (host : Bytes) (best : Option StrongestAlias)
    (row : Bytes × StsRow) : Except StsError (Option StrongestAlias) := do
  let policy ← decodeSTSPolicy (canon host) (some row.2)
  let candidate : StrongestAlias :=
    { chosen := row.2.getD {}
      chosenActive := policy.ok && now < policy.expiry
      chosenUntil := if policy.ok then unixMilli policy.expiry else 0
      maxRevision := policy.revision }
  match best with
  | none => return some candidate
  | some best =>
    let maxRevision := max best.maxRevision candidate.maxRevision
    if (candidate.chosenActive && !best.chosenActive) ||
        (candidate.chosenActive == best.chosenActive &&
          best.chosenUntil < candidate.chosenUntil) then
      return some { candidate with maxRevision := maxRevision }
    else return some { best with maxRevision := maxRevision }

def strongestSTSAlias (now : Int) (host : Bytes) (aliases : List (Bytes × StsRow)) :
    Except StsError (StsRecord × UInt64) := do
  match ← aliases.foldlM (strongestRound canon now host) none with
  | some best => return (best.chosen, best.maxRevision)
  | none => return ({}, 0)

def writeRows (host : Bytes) (record : StsRecord) (repairAliases : List (Bytes × StsRow))
    (table : StsTable) : StsTable :=
  repairAliases.foldl
    (fun table row => if row.1 ≠ stsKey canon host then table.erase row.1 else table)
    (table.insert (stsKey canon host) (some record))

/-- `writeSTSRecordLocked`: one transaction that writes the canonical row and removes the other
spellings it is given. -/
def writeSTSRecordLocked (env : StsEnv) (statement : StsStatement) (host : Bytes)
    (record : StsRecord) (repairAliases : List (Bytes × StsRow)) : StsAction Unit := do
  if env.fault statement then throw (.statement statement)
  modify (writeRows canon host record repairAliases)

def stsValueLocked (env : StsEnv) (host : Bytes) : StsAction (Option StsRow) := do
  let aliases ← stsAliasesLocked canon env .selectAliases host
  if aliases = [] then return none
  let (chosen, maxRevision) ← Effect.ofExcept (strongestSTSAlias canon env.now host aliases)
  if aliases.map Prod.fst = [stsKey canon host] then return aliases.head?.map Prod.snd
  let next ← Effect.ofExcept (nextSTSRevision maxRevision)
  writeSTSRecordLocked canon env .writeMigrated host { chosen with revision := next } aliases
  return some (some { chosen with revision := next })

/-! ### Operations -/

def stsPolicy (env : StsEnv) (host : Bytes) : StsAction StsPolicy := do
  let host := canon host
  let value ← stsValueLocked canon env host
  Effect.ofExcept (decodeSTSPolicy host value)

def stsReadErrorRepairable (expected : Option UInt64) (reason : StsError) : Bool :=
  expected.isNone &&
    match reason with
    | .corrupt _ => true
    | .exhausted => true
    | _ => false

def prepareSTSRepairLocked (env : StsEnv) (host : Bytes) :
    StsAction (StsRecord × List (Bytes × StsRow)) := do
  let repairAliases ← stsAliasesLocked canon env .reselectAliases host
  let (revision, epoch) ← Effect.ofExcept (freshSTSGenerationPair env)
  return ({ revision := revision, policyEpoch := epoch }, repairAliases)

def remintExhaustedSTSGenerations (env : StsEnv) (expected : Option UInt64)
    (current : StsRecord) : Except StsError StsRecord :=
  if expected.isNone ∧
      (current.revision = maxUint64 ∨ current.policyEpoch = maxUint64) then do
    let (revision, epoch) ← freshSTSGenerationPair env
    return { current with revision := revision, policyEpoch := epoch }
  else return current

/-- What `updateSTS` starts from: the record in the table, whether there is one, and the rows a
repair removes. -/
def currentSTSLocked (env : StsEnv) (host : Bytes) (expected : Option UInt64) :
    StsAction (StsRecord × Bool × List (Bytes × StsRow)) := do
  let read ← tryCatch (some <$> stsValueLocked canon env host) fun reason =>
    if stsReadErrorRepairable expected reason then pure none else throw reason
  match read with
  | none =>
    let (current, repairAliases) ← prepareSTSRepairLocked canon env host
    return (current, !repairAliases.isEmpty, repairAliases)
  | some none => return ({}, false, [])
  | some (some none) => throw (.corrupt host)
  | some (some (some current)) => return (current, true, [])

/-- `updateSTS`: the counters after it and whether the record was written. `makeRecord` gives
`none` where it applies nothing. -/
def updateSTS (env : StsEnv) (host : Bytes) (expected : Option UInt64)
    (makeRecord : StsRecord → Bool → Except StsError (Option StsRecord)) :
    StsAction (UInt64 × UInt64 × Bool) := do
  let host := canon host
  let (current, present, repairAliases) ← currentSTSLocked canon env host expected
  if expected.isSome ∧ expected ≠ some current.revision then
    return (current.revision, current.policyEpoch, false)
  let current ← Effect.ofExcept (remintExhaustedSTSGenerations env expected current)
  match ← Effect.ofExcept (makeRecord current present) with
  | none => return (current.revision, current.policyEpoch, false)
  | some next =>
    writeSTSRecordLocked canon env .writeRecord host next repairAliases
    return (next.revision, next.policyEpoch, true)

/-- The milliseconds `SetSTSPolicy` writes for a duration. -/
def clampSTSDuration (duration : Int) : Int :=
  max 1 (min (duration.tdiv (10 ^ 6)) maxSTSDurationMs)

/-- The record `SetSTSPolicy` makes. -/
def setRecord (port expiry duration : Int) (current : StsRecord) (_ : Bool) :
    Except StsError (Option StsRecord) := do
  let revision ← nextSTSRevision current.revision
  let epoch ← nextSTSRevision current.policyEpoch
  return some
    { port := port, untilMs := some (unixMilli expiry),
      duration := some (clampSTSDuration duration), revision := revision, policyEpoch := epoch }

def setSTSPolicy (env : StsEnv) (host : Bytes) (port expiry duration : Int) :
    StsAction (UInt64 × UInt64) := do
  if port ≤ 0 ∨ 65535 < port ∨ unixMilli expiry ≤ 0 then throw .invalid
  let (revision, epoch, _) ← updateSTS canon env host none (setRecord port expiry duration)
  return (revision, epoch)

/-- The tombstone `ClearSTSPolicy` makes. -/
def clearRecord (current : StsRecord) (_ : Bool) : Except StsError (Option StsRecord) := do
  let revision ← nextSTSRevision current.revision
  let epoch ← nextSTSRevision current.policyEpoch
  return some { revision := revision, policyEpoch := epoch, disabled := true }

def clearSTSPolicy (env : StsEnv) (host : Bytes) : StsAction (UInt64 × UInt64) := do
  let (revision, epoch, _) ← updateSTS canon env host none clearRecord
  return (revision, epoch)

/-- The record `RescheduleSTSPolicy` makes: the expiry and the revision change, the epoch does
not. -/
def rescheduledRecord (host : Bytes) (expiry : Int) (current : StsRecord) (present : Bool) :
    Except StsError (Option StsRecord) :=
  if !present || current.disabled then return none
  else
    match current.untilMs with
    | none => throw (.corrupt (canon host))
    | some untilMs =>
      if current.port ≤ 0 ∨ 65535 < current.port ∨ untilMs ≤ 0 then
        throw (.corrupt (canon host))
      else
        match current.duration with
        | none => return none
        | some duration =>
          if duration < 1 ∨ maxSTSDurationMs < duration then return none
          else do
            let revision ← nextSTSRevision current.revision
            return some { current with untilMs := some (unixMilli expiry), revision := revision }

def rescheduleSTSPolicy (env : StsEnv) (host : Bytes) (expected : UInt64) (expiry : Int) :
    StsAction (UInt64 × Bool) := do
  let (revision, _, applied) ← updateSTS canon env host (some expected)
    (rescheduledRecord canon host expiry)
  return (revision, applied)

/-! ### The row of a host -/

variable {canon}

def Settled (canon : Bytes → Bytes) (host : Bytes) (table : StsTable) : Prop :=
  ∀ key value, table.lookup key = some value → Spells canon host key = true →
    key = stsKey canon host

theorem spells_stsKey (fixed : canon host = host) :
    Spells canon host (stsKey canon host) = true := by
  have rest : trimPrefix (stsKey canon host) (lit "sts:") = host := by
    unfold trimPrefix stsKey hasPrefix
    rw [if_pos (List.isPrefixOf_iff_prefix.mpr (prefix_append _ _)), drop_left, fixed]
  rw [Spells, rest, beq_self_eq_true]

theorem stsAliases_of_settled (fixed : canon host = host) (settled : Settled canon host table) :
    stsAliases canon host table = ((table.lookup (stsKey canon host)).map fun value =>
        (stsKey canon host, value)).toList := by
  unfold stsAliases
  rw [filter_entries_key (spells_stsKey fixed) settled]
  cases table.lookup (stsKey canon host) <;> rfl

theorem mem_stsAliases (found : table.lookup key = some value)
    (spells : Spells canon host key = true) : (key, value) ∈ stsAliases canon host table :=
  mem_map.mpr ⟨⟨key, value⟩, mem_filter.mpr ⟨mem_of_lookup found, spells⟩, rfl⟩

theorem lookup_foldl_erase {own : Bytes} :
    (rows.foldl (fun table row => if row.1 ≠ own then table.erase row.1 else table) table).lookup
        key = some value ↔
      table.lookup key = some value ∧ (key = own ∨ key ∉ rows.map Prod.fst) := by
  induction rows generalizing table with
  | nil => simp
  | cons row _ ih =>
    rw [foldl_cons, ih, map_cons, mem_cons, not_or]
    by_cases same : row.1 = own
    · rw [if_neg (not_not_intro same), same]
      tauto
    · rw [if_pos same, lookup_erase_eq]
      by_cases erased : key = row.1
      · simp [erased, same]
      · simp [erased]

theorem lookup_writeRows :
    (writeRows canon host record rows table).lookup (stsKey canon host) =
      some (some record) :=
  lookup_foldl_erase.mpr ⟨AList.lookup_insert _, .inl rfl⟩

theorem settled_writeRows
    (covered : ∀ key value, table.lookup key = some value → Spells canon host key = true →
      key = stsKey canon host ∨ key ∈ rows.map Prod.fst) :
    Settled canon host (writeRows canon host record rows table) := by
  intro key value found spells
  obtain ⟨found, own | unlisted⟩ := lookup_foldl_erase.mp found
  · exact own
  · rw [lookup_insert_eq] at found
    split at found
    · assumption
    · exact (covered key value found spells).resolve_right unlisted

theorem settled_write (listed : rows = stsAliases canon host table ∨ Settled canon host table) :
    Settled canon host (writeRows canon host record rows table) := by
  refine settled_writeRows fun key value found spells => ?_
  rcases listed with rfl | settled
  · exact .inr (mem_map_of_mem (mem_stsAliases found spells))
  · exact .inl (settled key value found spells)

/-! ### What the operations leave -/

variable {env : StsEnv}

theorem wp_stsAliasesLocked {post : List (Bytes × StsRow) → StsTable → Prop}
    (failure : env.fault statement = true → failed (.statement statement) table)
    (success : post (stsAliases canon host table) table) :
    wp (stsAliasesLocked canon env statement host) post failed table := by
  unfold stsAliasesLocked
  split
  next fails =>
    exact failure fails
  · exact success

theorem wp_writeSTSRecordLocked {post : Unit → StsTable → Prop}
    (failure : env.fault statement = true → failed (.statement statement) table)
    (success : post () (writeRows canon host record rows table)) :
    wp (writeSTSRecordLocked canon env statement host record rows) post failed
      table := by
  unfold writeSTSRecordLocked
  split
  next fails =>
    exact failure fails
  · exact success

theorem settled_iff (fixed : canon host = host) :
    Settled canon host table ↔ stsAliases canon host table = [] ∨
        (stsAliases canon host table).map Prod.fst = [stsKey canon host] := by
  constructor
  · intro settled
    rw [stsAliases_of_settled fixed settled]
    cases table.lookup (stsKey canon host) with
    | none => exact .inl rfl
    | some => exact .inr rfl
  · intro alone key value found spells
    have listed := mem_map_of_mem (f := Prod.fst) (mem_stsAliases found spells)
    rcases alone with none | one
    · rw [none] at listed
      cases listed
    · rw [one] at listed
      exact mem_singleton.mp listed

theorem freshSTSGenerationPair_eq_ok {pair : UInt64 × UInt64}
    (drawn : freshSTSGenerationPair env = .ok pair) :
    ∃ draws, env.entropy = some draws ∧ pair.1 = freshSTSGeneration draws.1 ∧
      pair.2 = freshSTSGeneration draws.2 := by
  unfold freshSTSGenerationPair at drawn
  split at drawn
  next first second entropy =>
    obtain rfl := Except.ok.inj drawn
    exact ⟨(first, second), entropy, rfl, rfl⟩
  · cases drawn

/-! ### Counters of the row -/

def generations (canon : Bytes → Bytes) (host : Bytes) (table : StsTable) : UInt64 × UInt64 :=
  match table.lookup (stsKey canon host) with
  | some (some record) => (record.revision, record.policyEpoch)
  | _ => (0, 0)

theorem renewal (current : StsRecord) (shape : UInt64 → UInt64 → StsRecord) :
    (∃ revision epoch, nextSTSRevision current.revision = .ok revision ∧
      nextSTSRevision current.policyEpoch = .ok epoch ∧ (do
          let revision ← nextSTSRevision current.revision
          let epoch ← nextSTSRevision current.policyEpoch
          return some (shape revision epoch)) = .ok (some (shape revision epoch))) ∨
    (current.revision = maxUint64 ∨ current.policyEpoch = maxUint64) ∧ (do
        let revision ← nextSTSRevision current.revision
        let epoch ← nextSTSRevision current.policyEpoch
        return some (shape revision epoch)) = .error .exhausted := by
  unfold nextSTSRevision
  split
  next full =>
    exact .inr ⟨.inl full, rfl⟩
  split
  next full =>
    exact .inr ⟨.inr full, rfl⟩
  · exact .inl ⟨_, _, rfl, rfl, rfl⟩

def StsRecord.Reschedulable (record : StsRecord) : Prop :=
  record.disabled = false ∧ (0 < record.port ∧ record.port ≤ 65535) ∧
    (∃ untilMs, record.untilMs = some untilMs ∧ 0 < untilMs) ∧
      ∃ duration, record.duration = some duration ∧ 1 ≤ duration ∧ duration ≤ maxSTSDurationMs

theorem rescheduledRecord_eq_some {expiry : Int}
    (made : rescheduledRecord canon host expiry current present = .ok (some record)) :
    present = true ∧ current.Reschedulable ∧ ∃ revision,
      nextSTSRevision current.revision = .ok revision ∧
        record = { current with untilMs := some (unixMilli expiry), revision := revision } := by
  unfold rescheduledRecord at made
  split at made
  · cases made
  next enforced =>
    rw [Bool.or_eq_true, not_or, Bool.not_eq_true', Bool.not_eq_false, Bool.not_eq_true] at enforced
    split at made
    · cases made
    next untilMs expires =>
      split at made
      · cases made
      next valid =>
        rw [not_or, not_or, not_le, not_lt, not_le] at valid
        split at made
        · cases made
        next duration lasting =>
          split at made
          · cases made
          next bounded =>
            rw [not_or, not_lt, not_lt] at bounded
            rcases revised : nextSTSRevision current.revision with reason | revision
            · rw [revised] at made
              cases made
            · rw [revised] at made
              exact ⟨enforced.1, ⟨enforced.2, ⟨valid.1, valid.2.1⟩, ⟨untilMs, expires, valid.2.2⟩,
                duration, lasting, bounded⟩, revision, rfl,
                (Option.some.inj (Except.ok.inj made)).symm⟩

end Ircthing.Store
