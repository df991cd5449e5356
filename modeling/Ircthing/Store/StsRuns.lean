/-
This file follows the policy of one host through any sequence of calls.
-/

import Ircthing.Store.StsHeld

namespace Ircthing.Store

open Library Effect List StsRecord

variable {canon : Bytes → Bytes} {host : Bytes} {env : StsEnv} {table next : StsTable}
  {expected bound : UInt64}

/-! ### Calls -/

inductive StsRequest
  | read
  | set (port expiry duration : Int)
  | clear
  | reschedule (expected : UInt64) (expiry : Int)
deriving DecidableEq

structure StsCall where
  env : StsEnv
  spelling : Bytes
  request : StsRequest

variable {calls : List StsCall} {call : StsCall}

inductive StsReply
  | policy (policy : StsPolicy)
  | written (revision epoch : UInt64)
  | rescheduled (revision : UInt64) (applied : Bool)
deriving DecidableEq

def StsReply.revision : StsReply → UInt64
  | .policy found => found.revision
  | .written revision _ => revision
  | .rescheduled revision _ => revision

/-- Whether a reply tells of a write. A migration is told by none. -/
def StsReply.writes : StsReply → Bool
  | .policy _ => false
  | .written _ _ => true
  | .rescheduled _ applied => applied

namespace StsCall

variable (canon) (call)

def perform : StsAction StsReply :=
  match call.request with
  | .read => do
    return .policy (← stsPolicy canon call.env call.spelling)
  | .set port expiry duration => do
    let (revision, epoch) ← setSTSPolicy canon call.env call.spelling port expiry duration
    return .written revision epoch
  | .clear => do
    let (revision, epoch) ← clearSTSPolicy canon call.env call.spelling
    return .written revision epoch
  | .reschedule expected expiry => do
    let (revision, applied) ← rescheduleSTSPolicy canon call.env call.spelling expected expiry
    return .rescheduled revision applied

def reply (table : StsTable) : Option StsReply :=
  (exec (call.perform canon) table).1.toOption

def after (table : StsTable) : StsTable :=
  final (call.perform canon) table

def writes (table : StsTable) : Bool :=
  (call.reply canon table).any StsReply.writes

end StsCall

def runCalls (canon : Bytes → Bytes) (calls : List StsCall) (table : StsTable) : StsTable :=
  calls.foldl (fun table call => call.after canon table) table

def Along (canon : Bytes → Bytes) (meets : StsTable → StsCall → Prop) :
    List StsCall → StsTable → Prop
  | [], _ => True
  | call :: later, table =>
    meets table call ∧ Along canon meets later (call.after canon table)

inductive Outcome (canon : Bytes → Bytes) (host : Bytes) (call : StsCall) (table : StsTable) :
    Option StsReply → StsTable → Prop
  | left {reply : Option StsReply} {next : StsTable} (leaves : Leaves canon host table next)
      (unwritten : ∀ revision epoch, reply ≠ some (.written revision epoch))
      (unapplied : ∀ revision, reply ≠ some (.rescheduled revision true)) :
      Outcome canon host call table reply next
  | set {port expiry duration : Int} {revision epoch : UInt64} {next : StsTable}
      (request : call.request = .set port expiry duration)
      (renews : Renews canon host call.env table revision epoch)
      (settled : Settled canon host next)
      (row : next.lookup (stsKey canon host) =
        some (some (policyRecord port expiry duration revision epoch))) :
      Outcome canon host call table (some (.written revision epoch)) next
  | cleared {revision epoch : UInt64} {next : StsTable} (request : call.request = .clear)
      (renews : Renews canon host call.env table revision epoch)
      (settled : Settled canon host next)
      (row : next.lookup (stsKey canon host) = some (some
        { revision := revision, policyEpoch := epoch, disabled := true })) :
      Outcome canon host call table (some (.written revision epoch)) next
  | rescheduled {expected revision : UInt64} {expiry : Int} {current : StsRecord} {next : StsTable}
      (request : call.request = .reschedule expected expiry)
      (starts : Starts canon host call.env table (some expected) current true)
      (matched : current.revision = expected) (enforced : current.disabled = false)
      (revised : nextSTSRevision current.revision = .ok revision)
      (settled : Settled canon host next)
      (row : next.lookup (stsKey canon host) = some (some
        { current with untilMs := some (unixMilli expiry), revision := revision })) :
      Outcome canon host call table (some (.rescheduled revision true)) next

theorem perform_outcome (fixed : canon host = host) (call : StsCall)
    (spelled : canon call.spelling = host) (table : StsTable) :
    wp (call.perform canon)
      (fun reply next => Outcome canon host call table (some reply) next ∧
        Settled canon host next ∧ reply.revision = (counters canon host next).1)
      (fun _ next => Outcome canon host call table none next) table := by
  have fails : ∀ next, Leaves canon host table next →
      Outcome canon host call table none next := fun next leaves =>
    .left leaves nofun nofun
  have twice : canon (canon call.spelling) = host := by rw [spelled, fixed]
  unfold StsCall.perform
  cases request : call.request with
  | read =>
    refine wp_seq (stsPolicy_held fixed twice call.env table) ?_ ?_
    · rintro policy next ⟨leaves, settled, found⟩
      refine ⟨.left leaves nofun nofun, settled, ?_⟩
      rcases found with ⟨nothing, rfl⟩ | ⟨_, holds, rfl⟩
      · rw [counters_of_absent fixed nothing]
        rfl
      · rw [counters_of_holds holds]
        unfold policy
        split <;> rfl
    · rintro reason next ⟨rfl, -⟩
      exact fails _ (.inl rfl)
  | set port expiry duration =>
    refine wp_seq (setSTSPolicy_held fixed twice call.env port expiry duration table) ?_
      fun _ next failed => fails next failed.1
    rintro ⟨revision, epoch⟩ next ⟨settled, row, renews, -⟩
    exact ⟨.set request renews settled row, settled, by rw [counters_of_row fixed settled row]; rfl⟩
  | clear =>
    refine wp_seq (clearSTSPolicy_held fixed twice call.env table) ?_
      fun _ next failed => fails next failed.1
    rintro ⟨revision, epoch⟩ next ⟨settled, row, renews⟩
    exact ⟨.cleared request renews settled row, settled,
      by rw [counters_of_row fixed settled row]; rfl⟩
  | reschedule expected expiry =>
    refine wp_seq (rescheduleSTSPolicy_held fixed twice call.env expected expiry table) ?_
      fun _ next leaves => fails next leaves
    rintro ⟨revision, applied⟩ next ⟨settled, writes, leaves⟩
    cases applied with
    | true =>
      obtain ⟨_, starts, matched, enforced, revised, row⟩ := writes rfl
      exact ⟨.rescheduled request starts matched enforced.1 revised settled row, settled,
        by rw [counters_of_row fixed settled row]; rfl⟩
    | false =>
      obtain ⟨left, same, -⟩ := leaves rfl
      exact ⟨.left left nofun nofun, settled, same⟩

theorem call_outcome (fixed : canon host = host) (spelled : canon call.spelling = host) :
    Outcome canon host call table (call.reply canon table) (call.after canon table) ∧
      ∀ reply, call.reply canon table = some reply →
        Settled canon host (call.after canon table) ∧
          reply.revision = (counters canon host (call.after canon table)).1 := by
  have ended := perform_outcome fixed call spelled table
  unfold StsCall.reply StsCall.after final
  unfold wp at ended
  rcases run : exec (call.perform canon) table with ⟨outcome, _⟩
  rw [run] at ended
  cases outcome with
  | ok =>
    refine ⟨ended.1, fun other same => ?_⟩
    cases same
    exact ended.2
  | error => exact ⟨ended, nofun⟩

/-! ### One call -/

def Repairs (canon : Bytes → Bytes) (host : Bytes) (table : StsTable) (call : StsCall) : Prop :=
  Repairable canon host table ∧
    ∃ revision epoch, call.reply canon table = some (.written revision epoch)

variable {call : StsCall} {reply : Option StsReply} {revision epoch : UInt64}

theorem Leaves.counters (fixed : canon host = host) (leaves : Leaves canon host table next) :
    next = table ∨
      (counters canon host table).1 < (counters canon host next).1 ∧
        (counters canon host next).2 = (counters canon host table).2 := by
  refine leaves.imp id ?_
  rintro ⟨_, _, migrates⟩
  rw [counters_of_holds migrates.holds, counters_of_row fixed migrates.settled migrates.row]
  exact ⟨lt_of_nextSTSRevision migrates.revised, by rw [migrates.same]⟩

theorem Starts.of_expected {current : StsRecord}
    (starts : Starts canon host env table (some expected) current true) :
    ∃ record, held canon host table = .holds record ∧
      current = { record with revision := current.revision } ∧
        (record.revision = current.revision ∨ record.revision < current.revision) ∧
          (Settled canon host table → current = record) := by
  cases starts with
  | row holds => exact ⟨current, holds, rfl, .inl rfl, fun _ => rfl⟩
  | migrated holds unsettled moved =>
    exact ⟨_, holds, rfl, .inr (lt_of_nextSTSRevision moved),
      fun settled => absurd settled unsettled⟩

/-- A call changes nothing, or raises the stored revision, by one if no row is left to migrate and
it then tells of the write, or repairs and counts on from the revision it has drawn. -/
theorem call_revision (fixed : canon host = host) (spelled : canon call.spelling = host) :
    call.after canon table = table ∧ call.writes canon table = false ∨
      (¬ Repairs canon host table call ∧
        (counters canon host table).1 < (counters canon host (call.after canon table)).1 ∧
        (Settled canon host table → call.writes canon table = true ∧
          (counters canon host (call.after canon table)).1.toNat =
            (counters canon host table).1.toNat + 1)) ∨
      Repairs canon host table call ∧ ∃ draws, call.env.entropy = some draws ∧
        (counters canon host (call.after canon table)).1.toNat =
          (freshSTSGeneration draws.1).toNat + 1 := by
  obtain ⟨outcome, -⟩ := call_outcome fixed spelled
  unfold StsCall.writes Repairs
  generalize call.reply canon table = reply at outcome ⊢
  generalize call.after canon table = next at outcome ⊢
  cases outcome with
  | left leaves unwritten unapplied =>
    rcases leaves.counters fixed with same | raised
    · refine .inl ⟨same, ?_⟩
      match reply with
      | none | some (.policy _) | some (.rescheduled _ false) => rfl
      | some (.written revision epoch) => exact absurd rfl (unwritten revision epoch)
      | some (.rescheduled revision true) => exact absurd rfl (unapplied revision)
    · refine .inr (.inl ⟨fun ⟨_, revision, epoch, written⟩ => unwritten revision epoch written,
        raised.1, fun settled => ?_⟩)
      rw [leaves.same settled] at raised
      exact absurd raised.1 (UInt64.lt_irrefl _)
  | set request renews settled row | cleared request renews settled row =>
    refine .inr ?_
    rw [counters_of_row fixed settled row]
    rcases renews.counters fixed with ⟨sound, above, -, counted⟩ | ⟨repairable, draws, drawn, counted, -⟩
    · exact .inl ⟨fun repairs => sound repairs.1, above, fun before => ⟨rfl, counted before⟩⟩
    · exact .inr ⟨⟨repairable, _, _, rfl⟩, draws, drawn, counted⟩
  | rescheduled _ starts _ _ revised settled row =>
    refine .inr (.inl ⟨fun ⟨_, _, _, written⟩ => (nomatch written), ?_⟩)
    obtain ⟨record, holds, -, below, kept⟩ := starts.of_expected
    rw [counters_of_row fixed settled row, counters_of_holds holds]
    have above := lt_of_nextSTSRevision revised
    refine ⟨below.elim (fun same => same ▸ above) fun below => UInt64.lt_trans below above,
      fun before => ⟨rfl, ?_⟩⟩
    rw [← kept before]
    exact toNat_of_nextSTSRevision revised

theorem call_epoch (fixed : canon host = host) (spelled : canon call.spelling = host) :
    ((∀ revision epoch, call.reply canon table ≠ some (.written revision epoch)) →
      (counters canon host (call.after canon table)).2 =
        (counters canon host table).2) ∧
    ((∃ revision epoch, call.reply canon table = some (.written revision epoch)) →
      ¬ Repairable canon host table →
        (counters canon host table).2 <
          (counters canon host (call.after canon table)).2) := by
  obtain ⟨outcome, -⟩ := call_outcome fixed spelled
  generalize call.reply canon table = reply at outcome ⊢
  generalize call.after canon table = next at outcome ⊢
  have renewed : ∀ {revision epoch record}, Renews canon host call.env table revision epoch →
      Settled canon host next →
      next.lookup (stsKey canon host) = some (some record) → record.policyEpoch = epoch →
      ¬ Repairable canon host table →
      (counters canon host table).2 < (counters canon host next).2 := by
    intro revision epoch record renews settled row same sound
    rw [counters_of_row fixed settled row, same]
    rcases renews.counters fixed with ⟨-, -, above, -⟩ | ⟨repairable, -⟩
    · exact above
    · exact absurd repairable sound
  cases outcome with
  | left leaves unwritten =>
    refine ⟨fun _ => ?_,
      fun ⟨revision, epoch, written⟩ => absurd written (unwritten revision epoch)⟩
    rcases leaves.counters fixed with same | raised
    · rw [same]
    · exact raised.2
  | set request renews settled row | cleared request renews settled row =>
    exact ⟨fun never => absurd rfl (never _ _), fun _ => renewed renews settled row rfl⟩
  | rescheduled _ starts _ _ _ settled row =>
    refine ⟨fun _ => ?_, fun ⟨_, _, impossible⟩ => (by cases impossible)⟩
    obtain ⟨record, holds, same, -, -⟩ := starts.of_expected
    rw [counters_of_row fixed settled row, counters_of_holds holds, same]

/-! ### Runs -/

/-- How many calls of a run tell of a write. -/
def writes (canon : Bytes → Bytes) : List StsCall → StsTable → Nat
  | [], _ => 0
  | call :: later, table =>
    (call.writes canon table).toNat + writes canon later (call.after canon table)

/-- A run without a repair. -/
def Unrepaired (canon : Bytes → Bytes) (host : Bytes) : List StsCall → StsTable → Prop :=
  Along canon fun table call => ¬ Repairs canon host table call

/-- The last repair of a run drew a revision from which the writes after it count up to exactly
`bound`. -/
def CountsBack (canon : Bytes → Bytes) (host : Bytes) (bound : UInt64) (calls : List StsCall)
    (table : StsTable) : Prop :=
  ∃ earlier repair later draws, calls = earlier ++ repair :: later ∧
    Repairs canon host (runCalls canon earlier table) repair ∧
    repair.env.entropy = some draws ∧
    Unrepaired canon host later (runCalls canon (earlier ++ [repair]) table) ∧
    (freshSTSGeneration draws.1).toNat + 1 +
      writes canon later (runCalls canon (earlier ++ [repair]) table) = bound.toNat

def ForHost (canon : Bytes → Bytes) (host : Bytes) (calls : List StsCall) : Prop :=
  ∀ call ∈ calls, canon call.spelling = host

section

variable (fixed : canon host = host)
include fixed

theorem settled_after (spelled : canon call.spelling = host)
    (settled : Settled canon host table) : Settled canon host (call.after canon table) := by
  obtain ⟨outcome, -⟩ := call_outcome fixed spelled
  generalize call.reply canon table = reply at outcome
  generalize call.after canon table = next at outcome
  cases outcome with
  | left leaves =>
    rcases leaves with rfl | ⟨_, _, migrates⟩
    · exact settled
    · exact migrates.settled
  | set request renews settled | cleared request renews settled => exact settled
  | rescheduled _ _ _ _ _ settled => exact settled

theorem settled_runCalls (forHost : ForHost canon host calls)
    (settled : Settled canon host table) : Settled canon host (runCalls canon calls table) := by
  induction calls generalizing table with
  | nil => exact settled
  | cons call _ ih =>
    exact ih (fun other member => forHost other (.tail _ member))
      (settled_after fixed (forHost call mem_cons_self) settled)

/-- Without a repair the revision counts the writes. -/
theorem revision_runCalls (forHost : ForHost canon host calls)
    (calm : Unrepaired canon host calls table) (settled : Settled canon host table) :
    (counters canon host (runCalls canon calls table)).1.toNat =
      (counters canon host table).1.toNat + writes canon calls table := by
  induction calls generalizing table with
  | nil => rfl
  | cons call later ih =>
    obtain ⟨unrepaired, rest⟩ := calm
    have spelled := forHost call mem_cons_self
    have counted := ih (fun other member => forHost other (.tail _ member)) rest
      (settled_after fixed spelled settled)
    show (counters canon host (runCalls canon later (call.after canon table))).1.toNat =
      (counters canon host table).1.toNat +
        ((call.writes canon table).toNat + writes canon later (call.after canon table))
    rw [counted]
    rcases call_revision fixed spelled with ⟨same, silent⟩ | ⟨-, -, raised⟩ | ⟨repairs, -⟩
    · rw [silent, same, Bool.toNat_false, Nat.zero_add]
    · obtain ⟨told, raised⟩ := raised settled
      rw [told, raised, Bool.toNat_true, Nat.add_assoc]
    · exact absurd repairs unrepaired

omit fixed in
theorem Repairs.writes (repairs : Repairs canon host table call) :
    call.writes canon table = true := by
  obtain ⟨-, _, _, written⟩ := repairs
  unfold StsCall.writes
  rw [written]
  rfl

theorem unchanged_of_writes (forHost : ForHost canon host calls)
    (settled : Settled canon host table) (silent : writes canon calls table = 0) :
    Along canon (fun table call => call.after canon table = table) calls table := by
  induction calls generalizing table with
  | nil => trivial
  | cons call later ih =>
    obtain ⟨none, rest⟩ := Nat.add_eq_zero_iff.mp silent
    have spelled := forHost call mem_cons_self
    have unwritten : call.writes canon table = false := Bool.toNat_eq_zero.mp none
    refine ⟨?_, ih (fun other member => forHost other (.tail _ member))
      (settled_after fixed spelled settled) rest⟩
    rcases call_revision fixed spelled with ⟨same, -⟩ | ⟨-, -, raised⟩ | ⟨repairs, -⟩
    · exact same
    · exact absurd ((raised settled).1.symm.trans unwritten) (by decide)
    · exact absurd (repairs.writes.symm.trans unwritten) (by decide)

omit fixed in
theorem last_repair (repaired : ¬ Unrepaired canon host calls table) :
    ∃ earlier repair later, calls = earlier ++ repair :: later ∧
      Repairs canon host (runCalls canon earlier table) repair ∧
        Unrepaired canon host later (runCalls canon (earlier ++ [repair]) table) := by
  induction calls generalizing table with
  | nil => exact absurd trivial repaired
  | cons call later ih =>
    by_cases calm : Unrepaired canon host later (call.after canon table)
    · exact ⟨[], call, later, rfl, not_not.mp fun none => repaired ⟨none, calm⟩, calm⟩
    · obtain ⟨earlier, repair, rest, rfl, repairs, unrepaired⟩ := ih calm
      exact ⟨call :: earlier, repair, rest, rfl, repairs, unrepaired⟩

/-- A run that ends with the revision it started from has changed nothing, or has counted back to
it from a draw. -/
theorem unchanged_of_revision (forHost : ForHost canon host calls)
    (settled : Settled canon host table) (starts : (counters canon host table).1 = bound)
    (ends : (counters canon host (runCalls canon calls table)).1 = bound) :
    Along canon (fun table call => call.after canon table = table) calls table ∨
      CountsBack canon host bound calls table := by
  by_cases calm : Unrepaired canon host calls table
  · have counted := revision_runCalls fixed forHost calm settled
    rw [ends, starts] at counted
    exact .inl (unchanged_of_writes fixed forHost settled (Nat.left_eq_add.mp counted))
  · obtain ⟨earlier, repair, later, rfl, repairs, unrepaired⟩ := last_repair calm
    have before : ForHost canon host earlier :=
      fun call member => forHost call (mem_append_left _ member)
    have spelled : canon repair.spelling = host :=
      forHost repair (mem_append_right _ mem_cons_self)
    have after : ForHost canon host later :=
      fun call member => forHost call (mem_append_right _ (.tail _ member))
    have reached : runCalls canon (earlier ++ [repair]) table =
        repair.after canon (runCalls canon earlier table) := foldl_append
    have ended : runCalls canon (earlier ++ repair :: later) table =
        runCalls canon later (repair.after canon (runCalls canon earlier table)) := foldl_append
    have counted := revision_runCalls fixed after (reached ▸ unrepaired)
      (settled_after fixed spelled (settled_runCalls fixed before settled))
    rw [← ended, ends] at counted
    rcases call_revision fixed spelled with ⟨-, silent⟩ | ⟨none, -⟩ | ⟨-, draws, drawn, renewed⟩
    · exact absurd (repairs.writes.symm.trans silent) (by decide)
    · exact absurd repairs none
    · refine .inr ⟨earlier, repair, later, draws, rfl, repairs, drawn, unrepaired, ?_⟩
      rw [reached, counted, renewed]

end

def Cleared (canon : Bytes → Bytes) (host : Bytes) (table : StsTable) : Prop :=
  ∃ record, held canon host table = .holds record ∧ record.disabled = true

def SetsNothing (canon : Bytes → Bytes) (table : StsTable) (call : StsCall) : Prop :=
  ∀ port expiry duration, call.request = .set port expiry duration → call.reply canon table = none

section

variable (fixed : canon host = host)
include fixed

theorem cleared_after (spelled : canon call.spelling = host)
    (cleared : Cleared canon host table) (unset : SetsNothing canon table call) :
    Cleared canon host (call.after canon table) := by
  obtain ⟨outcome, -⟩ := call_outcome fixed spelled
  unfold SetsNothing at unset
  generalize call.reply canon table = reply at outcome unset
  generalize call.after canon table = next at outcome
  cases outcome with
  | left leaves =>
    rcases leaves with rfl | ⟨record, migrated, migrates⟩
    · exact cleared
    · obtain ⟨other, holds, disabled⟩ := cleared
      rw [migrates.holds] at holds
      cases holds
      exact ⟨migrated, migrates.held_next fixed, by rw [migrates.same]; exact disabled⟩
  | set request => cases unset _ _ _ request
  | cleared _ renews settled row =>
    exact ⟨_, held_of_row fixed settled row (tombstone_readable renews), rfl⟩
  | rescheduled _ starts _ enforced =>
    obtain ⟨record, holds, same, -, -⟩ := starts.of_expected
    obtain ⟨other, heldOther, disabled⟩ := cleared
    rw [holds] at heldOther
    cases heldOther
    rw [same] at enforced
    exact absurd (disabled.symm.trans enforced) (by decide)

theorem cleared_runCalls (forHost : ForHost canon host calls)
    (unset : Along canon (SetsNothing canon) calls table) (cleared : Cleared canon host table) :
    Cleared canon host (runCalls canon calls table) := by
  induction calls generalizing table with
  | nil => exact cleared
  | cons call _ ih =>
    exact ih (fun other member => forHost other (.tail _ member))
      unset.2 (cleared_after fixed (forHost call mem_cons_self) cleared unset.1)

theorem cleared_of_clear (spelled : canon call.spelling = host)
    (request : call.request = .clear) {reply : StsReply}
    (replied : call.reply canon table = some reply) :
    Cleared canon host (call.after canon table) := by
  have twice : canon (canon call.spelling) = host := by rw [spelled, fixed]
  have ended : wp (call.perform canon) (fun _ next => Cleared canon host next)
      (fun _ _ => True) table := by
    unfold StsCall.perform
    rw [request]
    refine wp_seq (clearSTSPolicy_held fixed twice call.env table) ?_ fun _ _ _ => trivial
    rintro result next ⟨settled, row, renews⟩
    exact ⟨_, held_of_row fixed settled row (tombstone_readable renews), rfl⟩
  unfold StsCall.reply at replied
  unfold StsCall.after final
  unfold wp at ended
  rcases run : exec (call.perform canon) table with ⟨outcome, next⟩
  rw [run] at ended replied
  cases outcome with
  | ok => exact ended
  | error => cases replied

end

theorem reply_read (request : call.request = .read)
    {revision epoch : UInt64} : call.reply canon table ≠ some (.written revision epoch) := by
  unfold StsCall.reply StsCall.perform
  rw [request]
  rw [exec_bind]
  rcases exec (stsPolicy canon call.env call.spelling) table with ⟨outcome, _⟩
  cases outcome with
  | ok policy | error reason => exact nofun

theorem reschedule_applied (fixed : canon host = host) (spelled : canon call.spelling = host)
    {expiry : Int} (request : call.request = .reschedule expected expiry)
    (replied : call.reply canon table = some (.rescheduled revision true)) :
    (∃ record, held canon host table = .holds record ∧
      (call.after canon table).lookup (stsKey canon host) = some (some
        { record with untilMs := some (unixMilli expiry), revision := revision })) ∧
      (Settled canon host table → (counters canon host table).1 = expected) := by
  obtain ⟨outcome, -⟩ := call_outcome fixed spelled
  rw [replied] at outcome
  generalize call.after canon table = next at outcome ⊢
  cases outcome with
  | left _ _ unapplied => exact absurd rfl (unapplied revision)
  | rescheduled asked starts matched _ _ _ row =>
    rw [request] at asked
    cases asked
    obtain ⟨record, holds, same, -, kept⟩ := starts.of_expected
    refine ⟨⟨record, holds, ?_⟩, fun before => ?_⟩
    · rw [row, same]
    · rw [counters_of_holds holds, ← kept before]
      exact matched

/-- For one canonical host, any calls in any order, under any spelling of the host:
a call leaves the rows as they were, or raises the stored revision, or repairs;
a reschedule with a revision that a call had reported is applied only if no call in between changed
the rows, or if the writes after a repair counted from its draw up to exactly that revision;
it changes the expiry and the revision and nothing else;
a cleared policy stays cleared until a set succeeds;
and the epoch changes on a set or clear that succeeds and does not repair, and on no other call. -/
theorem sts_compare_and_swap (fixed : canon host = host) :
    (∀ (call : StsCall) (table : StsTable), canon call.spelling = host →
      call.after canon table = table ∨
        (counters canon host table).1 <
          (counters canon host (call.after canon table)).1 ∨
        Repairs canon host table call) ∧
    (∀ (first last : StsCall) (calls : List StsCall) (table : StsTable) (reported : StsReply)
        (expiry : Int) (revision : UInt64),
      canon first.spelling = host → ForHost canon host calls →
      canon last.spelling = host → first.reply canon table = some reported →
      last.request = .reschedule reported.revision expiry →
      last.reply canon (runCalls canon calls (first.after canon table)) =
        some (.rescheduled revision true) →
      Along canon (fun table call => call.after canon table = table) calls
          (first.after canon table) ∨
        CountsBack canon host reported.revision calls (first.after canon table)) ∧
    (∀ (call : StsCall) (table : StsTable) (expected revision : UInt64) (expiry : Int),
      canon call.spelling = host → call.request = .reschedule expected expiry →
      call.reply canon table = some (.rescheduled revision true) →
      ∃ record, held canon host table = .holds record ∧
        (call.after canon table).lookup (stsKey canon host) = some (some
          { record with untilMs := some (unixMilli expiry), revision := revision })) ∧
    (∀ (clear : StsCall) (calls : List StsCall) (table : StsTable) (reply : StsReply),
      canon clear.spelling = host → ForHost canon host calls → clear.request = .clear →
      clear.reply canon table = some reply →
      Along canon (SetsNothing canon) calls (clear.after canon table) →
      Cleared canon host (runCalls canon calls (clear.after canon table))) ∧
    (∀ (call : StsCall) (table : StsTable), canon call.spelling = host →
      ((∀ revision epoch, call.reply canon table ≠ some (.written revision epoch)) →
        (counters canon host (call.after canon table)).2 =
          (counters canon host table).2) ∧
      ((∃ revision epoch, call.reply canon table = some (.written revision epoch)) →
        ¬ Repairable canon host table →
          (counters canon host (call.after canon table)).2 ≠
            (counters canon host table).2)) := by
  refine ⟨fun call table spelled => ?_, ?_, ?_, ?_, fun call table spelled => ?_⟩
  · exact (call_revision fixed spelled).imp And.left
      fun raised => raised.imp (fun raised => raised.2.1) And.left
  · intro first last calls table reported expiry revision spelled forHost lastSpelled replied
      request applied
    obtain ⟨settled, same⟩ := (call_outcome fixed spelled).2 reported replied
    refine unchanged_of_revision fixed forHost settled same.symm ?_
    exact (reschedule_applied fixed lastSpelled request applied).2
      (settled_runCalls fixed forHost settled)
  · intro call table expected revision expiry spelled request applied
    exact (reschedule_applied fixed spelled request applied).1
  · intro clear calls table reply spelled forHost request replied unset
    exact cleared_runCalls fixed forHost unset (cleared_of_clear fixed spelled request replied)
  · obtain ⟨kept, raised⟩ := call_epoch fixed spelled
    refine ⟨kept, fun written sound same => ?_⟩
    exact UInt64.lt_irrefl _ (same ▸ raised written sound)

/-! ### A reschedule that is stale, and a draw that hides it -/

/-- A row for `irc.example` with the given counters. -/
def exampleRow (revision epoch : UInt64) : StsTable :=
  AList.singleton (lit "sts:irc.example") (some
    { port := 6697, untilMs := some 1000, duration := some 60000, revision := revision,
      policyEpoch := epoch })

/-- A call for `irc.example` at a time, with two draws of zero bytes. -/
def exampleCall (request : StsRequest) : StsCall where
  env := { now := 0, fault := fun _ => false, entropy := some (0, 0) }
  spelling := lit "IRC.example."
  request := request

/-- A read reports a revision, and a reschedule with it goes through when only reads came in
between. -/
theorem sts_compare_and_swap_reads :
    plainHost (lit "irc.example") = lit "irc.example" ∧
    (exampleCall (.reschedule 7 (2 * 10 ^ 9))).reply plainHost
      (runCalls plainHost [exampleCall .read, exampleCall .read]
        ((exampleCall .read).after plainHost (exampleRow 7 3))) =
      some (.rescheduled 8 true) ∧
    Along plainHost (fun table call => call.after plainHost table = table)
      [exampleCall .read, exampleCall .read]
      ((exampleCall .read).after plainHost (exampleRow 7 3)) := by
  have fixed : plainHost (lit "irc.example") = lit "irc.example" := by decide +kernel
  have applied : (exampleCall (.reschedule 7 (2 * 10 ^ 9))).reply plainHost
      (runCalls plainHost [exampleCall .read, exampleCall .read]
        ((exampleCall .read).after plainHost (exampleRow 7 3))) =
      some (.rescheduled 8 true) := by decide +kernel
  have replied : (exampleCall .read).reply plainHost (exampleRow 7 3) =
      some (.policy ((policy
        { port := 6697, untilMs := some 1000, duration := some 60000, revision := 7,
          policyEpoch := 3 }))) := by decide +kernel
  have spelled : plainHost (lit "IRC.example.") = lit "irc.example" := by decide +kernel
  have reads : ∀ call ∈ [exampleCall .read, exampleCall .read], call = exampleCall .read :=
    fun call member => by simpa using member
  have forHost : ForHost plainHost (lit "irc.example") [exampleCall .read, exampleCall .read] :=
    fun call member => reads call member ▸ spelled
  refine ⟨fixed, applied, ((sts_compare_and_swap fixed).2.1 (exampleCall .read)
    (exampleCall (.reschedule 7 (2 * 10 ^ 9))) [exampleCall .read, exampleCall .read]
    (exampleRow 7 3) _ (2 * 10 ^ 9) 8 spelled forHost spelled replied
    (by decide +kernel) applied).resolve_right ?_⟩
  rintro ⟨earlier, repair, later, -, split, ⟨-, _, _, written⟩, -⟩
  have read := reads repair (split ▸ mem_append_right _ mem_cons_self)
  exact reply_read (by rw [read]; rfl) written

/-- With the epoch at its maximum, a set draws both counters again. The new revision may be the one
a read reported, and a reschedule with it is applied. -/
theorem draw_hides_write :
    (exampleCall .read).reply plainHost (exampleRow 0x4000000000000001 maxUint64) =
      some (.policy (policy
        { port := 6697, untilMs := some 1000, duration := some 60000,
          revision := 0x4000000000000001, policyEpoch := maxUint64 })) ∧
    (exampleCall (.set 6698 (5 * 10 ^ 9) (10 ^ 9))).reply plainHost
        (exampleRow 0x4000000000000001 maxUint64) =
      some (.written 0x4000000000000001 0x4000000000000001) ∧
    (exampleCall (.reschedule 0x4000000000000001 (9 * 10 ^ 9))).reply plainHost
        ((exampleCall (.set 6698 (5 * 10 ^ 9) (10 ^ 9))).after plainHost
          (exampleRow 0x4000000000000001 maxUint64)) =
      some (.rescheduled 0x4000000000000002 true) := by
  decide +kernel

end Ircthing.Store
