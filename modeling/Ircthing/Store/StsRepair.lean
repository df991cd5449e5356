/-
This file proves that a row that cannot be read stops every read of its host, and that a set or a
clear repairs the host.
-/

import Ircthing.Golang.Utf8
import Ircthing.Store.StsHeld

namespace Ircthing.Store

open Library Effect StsRecord

variable {canon : Bytes → Bytes} {host : Bytes} {env : StsEnv} {table : StsTable}
  {reason : StsError}
variable {row : StsRow} {spelling : Bytes} {expiry : Int}

/-! ### Rows that cannot be read -/

theorem mapM_readRow_eq_none {rows : List StsRow} (member : row ∈ rows)
    (unread : readRow row = none) : rows.mapM readRow = none := by
  induction rows with
  | nil => cases member
  | cons first _ ih =>
    rw [List.mapM_cons]
    rcases List.mem_cons.mp member with rfl | inLater
    · rw [unread]
      rfl
    · rw [ih inLater]
      cases readRow first <;> rfl

theorem held_of_unread {key : Bytes} (found : table.lookup key = some row)
    (spells : Spells canon host key = true) (unread : readRow row = none) :
    held canon host table = .unreadable := by
  have member : row ∈ (stsAliases canon host table).map Prod.snd :=
    List.mem_map.mpr ⟨(key, row), mem_stsAliases found spells, rfl⟩
  unfold held heldRows
  rw [mapM_readRow_eq_none member unread]

theorem readRow_of_decode_error
    (failed : decodeSTSPolicy host (some row) = .error reason) : readRow row = none := by
  rw [decodeSTSPolicy_row] at failed
  cases read : readRow row with
  | none => rfl
  | some =>
    rw [read] at failed
    cases failed

theorem Leaves.eq_of_unreadable {next : StsTable} (leaves : Leaves canon host table next)
    (unreadable : held canon host table = .unreadable) : next = table := by
  rcases leaves with same | ⟨_, _, migrates⟩
  · exact same
  · rw [migrates.holds] at unreadable
    cases unreadable

theorem exists_error_of_wp {Value : Type} {program : StsAction Value}
    (holds : wp program (fun _ _ => False) (fun _ next => next = table) table) :
    ∃ reason, exec program table = (.error reason, table) := by
  unfold wp at holds
  rcases ended : exec program table with ⟨outcome, next⟩
  rw [ended] at holds
  cases outcome with
  | ok => exact holds.elim
  | error reason =>
    obtain rfl : next = table := holds
    exact ⟨reason, rfl⟩

theorem stsPolicy_unreadable (fixed : canon host = host) (spelled : canon (canon spelling) = host)
    (unreadable : held canon host table = .unreadable) :
    ∃ reason, exec (stsPolicy canon env spelling) table = (.error reason, table) := by
  refine exists_error_of_wp (wp_mono (stsPolicy_held fixed spelled env table) ?_
    fun _ _ failed => failed.1)
  rintro policy next ⟨leaves, -, found⟩
  rw [leaves.eq_of_unreadable unreadable, unreadable] at found
  rcases found with ⟨impossible, -⟩ | ⟨_, impossible, -⟩
  · cases impossible
  · cases impossible

theorem rescheduleSTSPolicy_unreadable (fixed : canon host = host)
    (spelled : canon (canon spelling) = host) {expected : UInt64}
    (unreadable : held canon host table = .unreadable) :
    ∃ reason, exec (rescheduleSTSPolicy canon env spelling expected expiry) table =
      (.error reason, table) := by
  refine exists_error_of_wp (wp_mono
    (rescheduleSTSPolicy_held fixed spelled env expected expiry table) ?_
    fun _ _ leaves => leaves.eq_of_unreadable unreadable)
  rintro ⟨_, applied⟩ next ⟨-, writes, leaves⟩
  cases applied with
  | true =>
    obtain ⟨_, starts, -⟩ := writes rfl
    cases starts with
    | row holds | migrated holds =>
      rw [holds] at unreadable
      cases unreadable
  | false => exact (leaves rfl).2.2 unreadable

/-! ### Repair -/

structure Undisturbed (env : StsEnv) : Prop where
  statements : ∀ statement, env.fault statement = false
  entropy : env.entropy.isSome = true

theorem Undisturbed.not_failed (undisturbed : Undisturbed env)
    (failed : (∃ statement, reason = .statement statement ∧ env.fault statement = true) ∨
      reason = .entropy ∧ env.entropy = none) : False := by
  rcases failed with ⟨statement, -, fails⟩ | ⟨-, none⟩
  · rw [undisturbed.statements] at fails
    cases fails
  · have present := undisturbed.entropy
    rw [none] at present
    cases present

theorem stsPolicy_of_row (fixed : canon host = host) (spelled : canon (canon spelling) = host)
    (statements : ∀ statement, env.fault statement = false) (settled : Settled canon host table)
    {record : StsRecord} (row : table.lookup (stsKey canon host) = some (some record))
    (readable : record.readable = true) :
    exec (stsPolicy canon env spelling) table = (.ok record.policy, table) := by
  have holds := held_of_row fixed settled row readable
  have ended := stsPolicy_held fixed spelled env table
  unfold wp at ended
  rcases run : exec (stsPolicy canon env spelling) table with ⟨outcome, _⟩
  rw [run] at ended
  cases outcome with
  | error =>
    obtain ⟨-, fails⟩ := ended
    cases fails with
    | statement fails =>
      rw [statements] at fails
      cases fails
    | corrupt unreadable =>
      rw [holds] at unreadable
      cases unreadable
    | exhausted _ unsettled => exact absurd settled unsettled
  | ok =>
    obtain ⟨leaves, -, found⟩ := ended
    obtain rfl := leaves.same settled
    rw [holds] at found
    rcases found with ⟨impossible, -⟩ | ⟨_, same, rfl⟩
    · cases impossible
    · cases same
      rfl

/-- A policy as it is read back: the expiry in whole milliseconds, and the duration in whole
milliseconds within its bounds. -/
def storedPolicy (port expiry duration : Int) (revision epoch : UInt64) : StsPolicy where
  port := port
  expiry := ofUnixMilli (unixMilli expiry)
  duration := clampSTSDuration duration * 10 ^ 6
  revision := revision
  policyEpoch := epoch
  ok := true

theorem policyRecord_readable {port duration : Int} (revision epoch : UInt64)
    (valid : 0 < port ∧ port ≤ 65535 ∧ 0 < unixMilli expiry) :
    (policyRecord port expiry duration revision epoch).readable = true := by
  unfold readable policyRecord
  simp [valid]

theorem policyRecord_policy (port expiry duration : Int) (revision epoch : UInt64) :
    (policyRecord port expiry duration revision epoch).policy =
      storedPolicy port expiry duration revision epoch := by
  have bounds : 1 ≤ clampSTSDuration duration ∧ clampSTSDuration duration ≤ maxSTSDurationMs := by
    unfold clampSTSDuration
    have room : (1 : Int) ≤ maxSTSDurationMs := by decide
    omega
  unfold policy storedPolicy
  have lasting : (policyRecord port expiry duration revision epoch).decodedDuration =
      clampSTSDuration duration * 10 ^ 6 := if_pos bounds
  rw [lasting]
  rfl

/-- For every host whose canonical spelling is canonical itself: when a row under a spelling of the
host is no policy and no tombstone, a read and a reschedule fail and write nothing; and a set or a
clear that nothing outside stops succeeds, after which a read returns the policy set, or none. -/
theorem sts_fails_closed_and_repairs {spelling : Bytes}
    (fixed : canon (canon spelling) = canon spelling) :
    (∀ (env : StsEnv) (table : StsTable) (key : Bytes) (row : StsRow) (reason : StsError),
      table.lookup key = some row → Spells canon spelling key = true →
      decodeSTSPolicy (canon spelling) (some row) = .error reason →
      (∃ reason, exec (stsPolicy canon env spelling) table = (.error reason, table)) ∧
        ∀ expected expiry, ∃ reason,
          exec (rescheduleSTSPolicy canon env spelling expected expiry) table =
            (.error reason, table)) ∧
    (∀ (env later : StsEnv) (table : StsTable) (port expiry duration : Int),
      Undisturbed env → (∀ statement, later.fault statement = false) →
      0 < port ∧ port ≤ 65535 ∧ 0 < unixMilli expiry →
      ∃ revision epoch next,
        exec (setSTSPolicy canon env spelling port expiry duration) table =
            (.ok (revision, epoch), next) ∧
          exec (stsPolicy canon later spelling) next =
            (.ok (storedPolicy port expiry duration revision epoch), next)) ∧
    (∀ (env later : StsEnv) (table : StsTable), Undisturbed env →
      (∀ statement, later.fault statement = false) →
      ∃ revision epoch next,
        exec (clearSTSPolicy canon env spelling) table = (.ok (revision, epoch), next) ∧
          exec (stsPolicy canon later spelling) next =
            (.ok { revision := revision, policyEpoch := epoch }, next)) := by
  refine ⟨?_, ?_, ?_⟩
  · intro env table key row reason found spells failed
    have spellsHost : Spells canon (canon spelling) key = true := by
      unfold Spells at spells ⊢
      rw [fixed]
      exact spells
    have unreadable := held_of_unread found spellsHost (readRow_of_decode_error failed)
    exact ⟨stsPolicy_unreadable fixed fixed unreadable, fun expected expiry =>
      rescheduleSTSPolicy_unreadable fixed fixed unreadable⟩
  · intro env later table port expiry duration undisturbed statements valid
    obtain ⟨⟨revision, epoch⟩, next, ended, settled, row, -, -⟩ := exists_of_wp
      (wp_mono (setSTSPolicy_held fixed fixed env port expiry duration table)
        (fun _ _ => id) fun _ _ failed => undisturbed.not_failed (failed.2 valid))
    refine ⟨revision, epoch, next, ended, ?_⟩
    rw [stsPolicy_of_row fixed fixed statements settled row (policyRecord_readable _ _ valid),
      policyRecord_policy]
  · intro env later table undisturbed statements
    obtain ⟨⟨revision, epoch⟩, next, ended, settled, row, renews⟩ := exists_of_wp
      (wp_mono (clearSTSPolicy_held fixed fixed env table)
        (fun _ _ => id) fun _ _ failed => undisturbed.not_failed failed.2)
    exact ⟨revision, epoch, next, ended,
      stsPolicy_of_row fixed fixed statements settled row (tombstone_readable renews)⟩

/-! ### A repaired row, a policy as it is stored, and a name that is not found -/

def calm : StsEnv where
  now := 0
  fault := fun _ => false
  entropy := some (0, 0)

/-- Two rows for one host: one is no record, and the counters of the other are at their maximum. -/
def damaged : StsTable :=
  (AList.singleton (lit "sts:irc.example") none).insert (lit "sts:IRC.Example.")
    (some { port := 6697, untilMs := some 1000, revision := maxUint64, policyEpoch := maxUint64 })

theorem sts_fails_closed_and_repairs_damaged :
    plainHost (plainHost (lit "irc.example")) = plainHost (lit "irc.example") ∧
    (∃ reason, exec (stsPolicy plainHost calm (lit "irc.example")) damaged =
      (.error reason, damaged)) ∧
    ∃ revision epoch next,
      exec (setSTSPolicy plainHost calm (lit "irc.example") 6697 (5 * 10 ^ 9) (10 ^ 9))
          damaged = (.ok (revision, epoch), next) ∧
        exec (stsPolicy plainHost calm (lit "irc.example")) next =
          (.ok (storedPolicy 6697 (5 * 10 ^ 9) (10 ^ 9) revision epoch), next) := by
  have fixed : plainHost (plainHost (lit "irc.example")) = plainHost (lit "irc.example") := by
    decide +kernel
  obtain ⟨closed, repaired, -⟩ := sts_fails_closed_and_repairs fixed
  exact ⟨fixed,
    (closed calm damaged (lit "sts:irc.example") none (.corrupt (plainHost (lit "irc.example")))
      (by decide +kernel) (by decide +kernel) rfl).1,
    repaired calm calm damaged 6697 (5 * 10 ^ 9) (10 ^ 9) ⟨fun _ => rfl, rfl⟩ (fun _ => rfl)
      (by decide)⟩

/-- A policy that is set with an expiry between two milliseconds is read back with the earlier
one. -/
theorem expiry_is_cut :
    (exec (do
        let _ ← setSTSPolicy plainHost calm (lit "irc.example") 6697 1500000 (10 ^ 9)
        stsPolicy plainHost calm (lit "irc.example")) ∅).1.toOption.map (·.expiry) =
      some 1000000 := by
  decide +kernel

/-! ### Canonical spellings -/

/-- What is assumed of reading and printing an address: what is printed is read as itself, the case
of letters does not matter, and nothing is printed with an end that `trimHost` cuts from its
text. -/
structure PrintsAddresses (address : Bytes → Option Bytes) (lowerRune : Nat → Nat) : Prop where
  again : ∀ text shown, address text = some shown → address shown = some shown
  lowered : ∀ text, address text = none → address (toLower lowerRune text) = none
  cut : ∀ shown, address (trimHost shown) = some shown → trimHost shown = shown

/-- The text of an address as it is printed, or else the text itself, has neither white space nor a
dot at its end. -/
def EndsPlain (address : Bytes → Option Bytes) (text : Bytes) : Prop :=
  trimHost ((address text).getD text) = (address text).getD text

theorem canonicalSTSHost_stable_iff {address : Bytes → Option Bytes} {lowerRune : Nat → Nat}
    (laws : LowersRunes lowerRune) (addresses : PrintsAddresses address lowerRune) (host : Bytes) :
    canonicalSTSHost address lowerRune (canonicalSTSHost address lowerRune host) =
        canonicalSTSHost address lowerRune host ↔
      EndsPlain address (trimHost host) := by
  have unfolds (host : Bytes) : canonicalSTSHost address lowerRune host =
      (address (trimHost host)).getD (toLower lowerRune (trimHost host)) := rfl
  rw [unfolds (canonicalSTSHost address lowerRune host), unfolds host, EndsPlain]
  generalize trimHost host = text
  cases read : address text with
  | none =>
    have unread := addresses.lowered text read
    rw [Option.getD_none, Option.getD_none, laws.trimHost_toLower, laws.toLower_twice]
    constructor
    · intro stable
      cases shown : address (toLower lowerRune (trimHost text)) with
      | none =>
        rw [shown, Option.getD_none] at stable
        exact laws.trimHost_of_toLower stable
      | some =>
        rw [shown, Option.getD_some] at stable
        have again := addresses.again _ _ shown
        rw [stable, unread] at again
        cases again
    · intro plain
      rw [plain, unread, Option.getD_none]
  | some shown =>
    have again := addresses.again text shown read
    rw [Option.getD_some, Option.getD_some]
    constructor
    · intro stable
      cases reread : address (trimHost shown) with
      | none =>
        rw [reread, Option.getD_none] at stable
        have unread := addresses.lowered _ reread
        rw [stable, again] at unread
        cases unread
      | some =>
        rw [reread, Option.getD_some] at stable
        exact addresses.cut shown (reread.trans (congrArg some stable))
    · intro plain
      rw [plain, again, Option.getD_some]

/-- A canonical spelling is canonical itself, and a policy set through one spelling is read through
all of them, if and only if the host, without white space around it and without one dot at its end,
is a name or is printed as an address that has neither at its end. -/
theorem sts_host_stable_iff (address : Bytes → Option Bytes) (lowerRune : Nat → Nat)
    (laws : LowersRunes lowerRune) (addresses : PrintsAddresses address lowerRune) (host : Bytes) :
    let canon := canonicalSTSHost address lowerRune
    (canon (canon host) = canon host ∧ ∀ other, canon other = canon host →
      ∀ env later table next port expiry duration revision epoch,
        exec (setSTSPolicy canon env host port expiry duration) table =
          (.ok (revision, epoch), next) → (∀ statement, later.fault statement = false) →
        exec (stsPolicy canon later other) next =
          (.ok (storedPolicy port expiry duration revision epoch), next)) ↔
      EndsPlain address (trimHost host) := by
  intro canon
  rw [← canonicalSTSHost_stable_iff laws addresses]
  refine ⟨And.left, fun fixed => ⟨fixed, ?_⟩⟩
  intro other same env later table next port expiry duration revision epoch set statements
  obtain ⟨settled, row, -, valid⟩ := ((wp_iff _ _ _ _).mp
    (setSTSPolicy_held fixed fixed env port expiry duration table)).1 _ _ set
  have spelled : canon (canon other) = canon host := (congrArg canon same).trans fixed
  rw [stsPolicy_of_row fixed spelled statements settled row (policyRecord_readable _ _ valid),
    policyRecord_policy]

/-- A reader that knows the loopback address of IPv6 in two spellings. -/
def readLoopback (text : Bytes) : Option Bytes :=
  if text = lit "::1" ∨ text = lit "0::1" then some (lit "::1") else none

theorem printsAddresses_readLoopback : PrintsAddresses readLoopback lowerASCII where
  again text shown read := by
    unfold readLoopback at read
    split at read <;> cases read
    rfl
  lowered text unread := by
    rw [readLoopback, if_neg]
    rintro (same | same) <;>
    · rw [eq_of_toLower same (by decide +kernel)] at unread
      cases unread
  cut shown read := by
    unfold readLoopback at read
    split at read <;> cases read
    decide +kernel

/-- A policy set through a long spelling of the loopback address is read through the short one. -/
theorem sts_host_stable_iff_loopback :
    ∃ revision epoch next,
      exec (setSTSPolicy (canonicalSTSHost readLoopback lowerASCII) calm (lit " 0::1.") 6697
          (5 * 10 ^ 9) (10 ^ 9)) ∅ = (.ok (revision, epoch), next) ∧
        exec (stsPolicy (canonicalSTSHost readLoopback lowerASCII) calm (lit "::1")) next =
          (.ok (storedPolicy 6697 (5 * 10 ^ 9) (10 ^ 9) revision epoch), next) := by
  have stable := (sts_host_stable_iff readLoopback lowerASCII lowersRunes_lowerASCII
    printsAddresses_readLoopback (lit " 0::1.")).mpr (by unfold EndsPlain; decide +kernel)
  have undisturbed : Undisturbed calm := ⟨fun _ => rfl, rfl⟩
  obtain ⟨⟨revision, epoch⟩, next, ended, -⟩ := exists_of_wp
    (wp_mono (setSTSPolicy_held stable.1 stable.1 calm 6697 (5 * 10 ^ 9) (10 ^ 9) ∅)
      (fun _ _ => id) fun _ _ failed => undisturbed.not_failed (failed.2 (by decide)))
  exact ⟨revision, epoch, next, ended, stable.2 (lit "::1") (by decide +kernel) _ _ _ _ _ _ _ _ _
    ended fun _ => rfl⟩

/-- Two dots at the end of a name make its canonical spelling another one, and with three of them a
policy is not found. -/
theorem sts_host_unstable : plainHost (plainHost (lit "a..")) ≠ plainHost (lit "a..") ∧
    (exec (do
        let _ ← setSTSPolicy plainHost calm (lit "a...") 6697 (5 * 10 ^ 9) (10 ^ 9)
        stsPolicy plainHost calm (lit "a...")) ∅).1.toOption.map (·.port) = some 0 := by
  decide +kernel

end Ircthing.Store
