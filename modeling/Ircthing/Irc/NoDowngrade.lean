/-
This file proves that a manager with a plaintext configuration does not fall back to cleartext while
the last policy it has received is in force.
-/

import Ircthing.Irc.StsAgreement

namespace Ircthing.Irc

open Library Store List Option Function StsSystem StsClient

variable {canon : Bytes → Bytes} {host : Bytes} {system : StsSystem} {events : List StsEvent}
  {event : StsEvent}

/-! ### Runs that keep a policy -/

/-- The events after which the policy of a manager still is the one it received last: it is not
replaced, receives no other duration, no other manager commits a policy or tombstone, and its own
write fails only on the epoch it last read. -/
def StsSystem.Calm (canon : Bytes → Bytes) (host : Bytes) (index : Nat)
    (system : StsSystem) : StsEvent → Prop
  | .restart other _ => other ≠ index
  | .advertise other value => other = index →
      ∀ port, (system.managers index).phase = .connected port true →
        (parseSTS value).hasDuration = false
  | .publish other fault entropy =>
      if other = index then
        system.commits canon host (.publish other fault entropy) = true ∨
          (system.managers index).sts.stsPolicyEpoch = (generations canon host system.table).2
      else system.commits canon host (.publish other fault entropy) = false
  | _ => True

/-! ### What keeps the next dial secure -/

variable (since duration : Int)

def deadlineOf : Int := ofUnixMilli (unixMilli (since + duration))

theorem deadlineOf_le : deadlineOf since duration ≤ since + duration := by
  unfold deadlineOf ofUnixMilli unixMilli
  omega

/-- The row holds the policy until the deadline, and no reschedule under way shortens it. -/
structure RowGuards (canon : Bytes → Bytes) (host : Bytes) (deadline duration : Int)
    (table : StsTable) (managers : Nat → StsClient) (record : StsRecord) : Prop where
  found : table.lookup (stsKey canon host) = some (some record)
  enforced : record.disabled = false
  port : 0 < record.port ∧ record.port ≤ 65535
  positive : 0 < deadline
  expiry : ∃ untilMs, record.untilMs = some untilMs ∧ 0 < untilMs ∧ deadline ≤ ofUnixMilli untilMs
  lasts : record.decodedDuration = duration
  pending : ∀ other revision expiry base,
    (managers other).phase = .rescheduling revision expiry base →
      revision = record.revision → deadline ≤ expiry

inductive Kept (canon : Bytes → Bytes) (host : Bytes) (deadline duration : Int)
    (table : StsTable) (managers : Nat → StsClient) (client : StsClient) : Prop
  | publishing {port expiry : Int} {base : StsState.Base}
      (phase : client.phase = .publishing port expiry duration base)
      (later : deadline = ofUnixMilli (unixMilli expiry))
  | unwritten (calm : client.phase.publishes = false) (dirty : client.sts.stsDirty = true)
      (full : client.sts.stsDirtyFull = true)
      (known : client.sts.stsDirtyBaseEpochKnown = true)
      (base : client.sts.stsDirtyBaseEpoch = (generations canon host table).2)
      (loaded : ∀ policy, client.phase = .loaded policy →
        policy.policyEpoch = client.sts.stsDirtyBaseEpoch)
  | row {record : StsRecord} (calm : client.phase.publishes = false)
      (row : RowGuards canon host deadline duration table managers record)
      (loaded : ∀ policy, client.phase = .loaded policy →
        policy.ok = true ∧ deadline ≤ policy.expiry ∧ policy.duration = duration ∧ 0 < policy.port)

structure Guarding (canon : Bytes → Bytes) (host : Bytes) (deadline duration : Int)
    (table : StsTable) (managers : Nat → StsClient) (client : StsClient) : Prop where
  plaintext : client.config.tls = false
  known : client.sts.stsRevisionKnown = true
  port : 0 < client.sts.stsPort
  expiry : ∃ expiry, client.sts.stsUntil = some expiry ∧ deadline ≤ expiry
  lasts : client.sts.stsLastDur = duration
  secure : ∀ port secure, client.phase = .connected port secure → secure = true
  uncleared : ∀ port, client.phase ≠ .clearing port
  kept : Kept canon host deadline duration table managers client

structure StsSystem.Guarded (canon : Bytes → Bytes) (host : Bytes) (index : Nat)
    (since duration : Int) (system : StsSystem) : Prop where
  past : since ≤ system.clock
  guarding : system.clock < deadlineOf since duration →
    Guarding canon host (deadlineOf since duration) duration system.table system.managers
      (system.managers index)

section

variable {deadline duration now : Int} {table : StsTable} {managers : Nat → StsClient}
  {client after : StsClient} {index : Nat} {record : StsRecord} {policy : StsPolicy}

theorem Guarding.active (guarding : Guarding canon host deadline duration table managers client)
    (early : now < deadline) : client.sts.active now = true := by
  obtain ⟨expiry, held, later⟩ := guarding.expiry
  unfold StsState.active
  rw [held]
  simp only [all_some, Bool.and_eq_true, decide_eq_true_eq]
  exact ⟨guarding.port, lt_of_lt_of_le early later⟩

theorem Guarding.effectiveAddr_secure
    (guarding : Guarding canon host deadline duration table managers client)
    (early : now < deadline) : (effectiveAddr client.config now client.sts).2 = true := by
  unfold effectiveAddr
  rw [guarding.plaintext, if_neg Bool.false_ne_true, if_pos (guarding.active early)]

def StsPhase.quiet : StsPhase → Bool
  | .loading | .ready => true
  | .connected _ secure => secure
  | _ => false

def StsPhase.reschedules : StsPhase → Bool
  | .rescheduling _ _ _ => true
  | _ => false

theorem StsPhase.of_quiet (phase : StsPhase) (quiet : phase.quiet = true) :
    phase.publishes = false ∧ phase.reschedules = false ∧ (∀ policy, phase ≠ .loaded policy) ∧
      (∀ port secure, phase = .connected port secure → secure = true) ∧
        ∀ port, phase ≠ .clearing port := by
  cases phase <;> simp_all [StsPhase.quiet, StsPhase.publishes, StsPhase.reschedules]

theorem RowGuards.update (row : RowGuards canon host deadline duration table managers record)
    (pending : ∀ revision expiry base, after.phase = .rescheduling revision expiry base →
      revision = record.revision → deadline ≤ expiry) :
    RowGuards canon host deadline duration table (update managers index after)
      record := by
  refine { row with pending := fun other revision expiry base phase => ?_ }
  by_cases same : other = index
  · rw [same, Function.update_self] at phase
    exact pending revision expiry base phase
  · rw [update_of_ne same] at phase
    exact row.pending other revision expiry base phase

theorem RowGuards.idle (row : RowGuards canon host deadline duration table managers record)
    (idle : after.phase.reschedules = false) :
    RowGuards canon host deadline duration table (Function.update managers index after)
      record := by
  refine row.update fun revision expiry base phase => ?_
  rw [phase] at idle
  cases idle

theorem Guarding.other (guarding : Guarding canon host deadline duration table managers client)
    (pending : ∀ revision expiry base, after.phase = .rescheduling revision expiry base →
      ∀ record, RowGuards canon host deadline duration table managers record →
        revision = record.revision → deadline ≤ expiry) :
    Guarding canon host deadline duration table (update managers index after)
      client := by
  refine { guarding with kept := ?_ }
  cases guarding.kept with
  | publishing phase later => exact .publishing phase later
  | unwritten calm dirty full known base loaded =>
    exact .unwritten calm dirty full known base loaded
  | row calm row loaded =>
    exact .row calm (row.update fun revision expiry base phase =>
      pending revision expiry base phase _ row) loaded

theorem Kept.quiet (kept : Kept canon host deadline duration table managers client)
    (unpublished : client.phase.publishes = false) (quiet : after.phase.quiet = true)
    (flags : after.sts.stsDirty = client.sts.stsDirty ∧
      after.sts.stsDirtyFull = client.sts.stsDirtyFull ∧
        after.sts.stsDirtyBaseEpoch = client.sts.stsDirtyBaseEpoch ∧
          after.sts.stsDirtyBaseEpochKnown = client.sts.stsDirtyBaseEpochKnown) :
    Kept canon host deadline duration table (update managers index after) after := by
  obtain ⟨calm, idle, unloaded, -, -⟩ := StsPhase.of_quiet _ quiet
  obtain ⟨sameDirty, sameFull, sameBase, sameKnown⟩ := flags
  cases kept with
  | publishing before =>
    rw [before] at unpublished
    cases unpublished
  | unwritten _ dirty full known base =>
    exact .unwritten calm (sameDirty.trans dirty) (sameFull.trans full) (sameKnown.trans known)
      (sameBase.trans base) fun policy loaded => absurd loaded (unloaded policy)
  | row _ row =>
    exact .row calm (row.idle idle) fun policy loaded => absurd loaded (unloaded policy)

theorem Guarding.rephase {phase : StsPhase}
    (guarding : Guarding canon host deadline duration table managers client)
    (unpublished : client.phase.publishes = false) (quiet : phase.quiet = true) :
    Guarding canon host deadline duration table
      (update managers index { client with phase := phase })
      { client with phase := phase } := by
  obtain ⟨-, -, -, secure, uncleared⟩ := StsPhase.of_quiet _ quiet
  exact { guarding with
    secure := secure
    uncleared := uncleared
    kept := guarding.kept.quiet unpublished quiet ⟨rfl, rfl, rfl, rfl⟩ }

theorem RowGuards.decoded (row : RowGuards canon host deadline duration table managers record)
    (decoded : decodeSTSPolicy host (table.lookup (stsKey canon host)) = .ok policy) :
    policy.ok = true ∧ deadline ≤ policy.expiry ∧ policy.duration = duration ∧ 0 < policy.port := by
  obtain ⟨untilMs, held, _, later⟩ := row.expiry
  have valid : ¬ (record.port ≤ 0 ∨ 65535 < record.port ∨ untilMs ≤ 0) := by
    have port := row.port
    omega
  rw [row.found] at decoded
  simp only [decodeSTSPolicy, row.enforced, held, if_neg valid, Bool.false_eq_true, if_false]
    at decoded
  obtain rfl := Except.ok.inj decoded
  exact ⟨rfl, later, row.lasts, row.port.1⟩

theorem Guarding.settle (guarding : Guarding canon host deadline duration table managers client)
    (early : now < deadline) (phase : client.phase = .loaded policy) :
    Guarding canon host deadline duration table (update managers index
        { client with sts := client.sts.loadSTS now policy, phase := .ready })
      { client with sts := client.sts.loadSTS now policy, phase := .ready } := by
  obtain ⟨-, -, unloaded, secure, uncleared⟩ := StsPhase.of_quiet .ready rfl
  cases guarding.kept with
  | publishing before =>
    rw [phase] at before
    cases before
  | unwritten _ dirty full _ base loaded =>
    have epoch := loaded policy phase
    rcases client.sts.loadSTS_cases now policy with
      ⟨-, -, -, loads⟩ | ⟨_, -, refused, -⟩
    · rw [loads]
      exact ⟨guarding.plaintext, rfl, guarding.port, guarding.expiry, guarding.lasts, secure,
        uncleared, .unwritten rfl dirty full rfl (epoch.trans base)
          fun policy held => absurd held (unloaded policy)⟩
    · exact absurd ⟨dirty, full, guarding.active early, epoch⟩ refused
  | row _ row loaded =>
    obtain ⟨ok, later, lasts, port⟩ := loaded policy phase
    have kept : ∀ state, Kept canon host deadline duration table
        (update managers index { client with sts := state, phase := .ready })
        { client with sts := state, phase := .ready } := fun state =>
      .row rfl (row.idle rfl) fun policy held => absurd held (unloaded policy)
    rcases client.sts.loadSTS_cases now policy with
      ⟨-, -, -, loads⟩ | ⟨_, -, -, loads⟩
    · rw [loads]
      exact ⟨guarding.plaintext, rfl, guarding.port, guarding.expiry, guarding.lasts, secure,
        uncleared, kept _⟩
    · have storeActive : (policy.ok && decide (now < policy.expiry)) = true := by
        rw [ok, Bool.true_and, decide_eq_true_eq]
        exact lt_of_lt_of_le early later
      rw [loads, if_pos storeActive]
      exact ⟨guarding.plaintext, rfl, port, ⟨_, rfl, later⟩, lasts, secure, uncleared, kept _⟩

theorem Guarding.closed {port : Option Int} {isSecure : Bool}
    (guarding : Guarding canon host deadline duration table managers client)
    (later : deadline ≤ now + duration) (phase : client.phase = .connected port isSecure) :
    Guarding canon host deadline duration table
      (update managers index (client.closed now isSecure))
      (client.closed now isSecure) := by
  have pushed : deadline ≤ now + client.sts.stsLastDur := by
    rw [guarding.lasts]
    exact later
  have unpublished : client.phase.publishes = false := by
    rw [phase]
    rfl
  obtain ⟨-, -, _, secure, uncleared⟩ := StsPhase.of_quiet .loading rfl
  rcases client.closed_cases now isSecure with same | ⟨-, extended⟩ | ⟨-, -, -, called⟩
  · rw [same]
    exact guarding.rephase unpublished rfl
  · rw [extended]
    exact { guarding with
      expiry := ⟨_, rfl, pushed⟩
      secure := secure
      uncleared := uncleared
      kept := guarding.kept.quiet unpublished rfl ⟨rfl, rfl, rfl, rfl⟩ }
  · rw [called]
    refine { guarding with
      expiry := ⟨_, rfl, pushed⟩, secure := by rintro _ _ ⟨⟩, uncleared := by rintro _ ⟨⟩
      kept := ?_ }
    cases guarding.kept with
    | publishing before =>
      rw [phase] at before
      cases before
    | unwritten _ dirty full known base _ =>
      exact .unwritten rfl dirty full known base (by rintro _ ⟨⟩)
    | row _ row _ =>
      refine .row rfl (row.update fun revision expiry base held _ => ?_) (by rintro _ ⟨⟩)
      cases held
      exact pushed

theorem Guarding.read (guarding : Guarding canon host deadline duration table managers client)
    (phase : client.phase = .loading)
    (decoded : decodeSTSPolicy host (table.lookup (stsKey canon host)) = .ok policy) :
    Guarding canon host deadline duration table
      (update managers index { client with phase := .loaded policy })
      { client with phase := .loaded policy } := by
  refine { guarding with secure := by rintro _ _ ⟨⟩, uncleared := by rintro _ ⟨⟩, kept := ?_ }
  cases guarding.kept with
  | publishing before =>
    rw [phase] at before
    cases before
  | unwritten _ dirty full known base _ =>
    refine .unwritten rfl dirty full known base fun taken held => ?_
    cases held
    rw [(row_of_decoded decoded).1] at base
    exact base.symm
  | row _ row _ =>
    refine .row rfl (row.idle rfl) fun taken held => ?_
    cases held
    exact row.decoded decoded

/-- Without a duration an advertisement on a secure connection changes nothing. -/
theorem Guarding.advertised {value : Bytes} {port : Option Int} {isSecure : Bool}
    (guarding : Guarding canon host deadline duration table managers client)
    (phase : client.phase = .connected port isSecure)
    (silent : ∀ port, client.phase = .connected port true →
      (parseSTS value).hasDuration = false) :
    Guarding canon host deadline duration table
      (update managers index (client.advertised now value port isSecure))
      (client.advertised now value port isSecure) := by
  obtain rfl := guarding.secure port isSecure phase
  have same : client.advertised now value port true =
      { client with phase := .connected port true } := by
    unfold StsClient.advertised
    rw [if_pos rfl, ← phase]
    cases port with
    | none => rfl
    | some => simp [silent _ phase]
  rw [same]
  exact guarding.rephase (by rw [phase]; rfl) rfl

theorem advertised_idle {value : Bytes} {port : Option Int} {isSecure : Bool}
    (phase : client.phase = .connected port isSecure) :
    (client.advertised now value port isSecure).phase.reschedules = false := by
  have idle : client.phase.reschedules = false := by
    rw [phase]
    rfl
  unfold StsClient.advertised
  dsimp only
  split
  · split
    · exact idle
    · split
      · exact idle
      · dsimp only
        split <;> rfl
  · split
    · rfl
    · exact idle

/-- Only a policy that the row has is rescheduled. -/
theorem Guarding.rescheduling {revision : UInt64} {expiry : Int} {base : StsState.Base}
    (guarding : Guarding canon host deadline duration table managers client)
    (phase : client.phase = .rescheduling revision expiry base)
    (partly : client.sts.stsDirtyFull = false) :
    ∃ record, RowGuards canon host deadline duration table managers record := by
  cases guarding.kept with
  | publishing before =>
    rw [phase] at before
    cases before
  | unwritten _ _ full =>
    rw [partly] at full
    cases full
  | row _ row => exact ⟨_, row⟩

end

/-! ### Every calm event keeps the policy -/

namespace StsSystem

variable {system next : StsSystem} {event : StsEvent} {index other : Nat} {since duration : Int}
  {after : StsClient} {table : StsTable} {port : Option Int} {revision : UInt64}
variable {expiry : Int} {base : StsState.Base}

section

variable (guarded : system.Guarded canon host index since duration)
include guarded

theorem Guarded.own (guarding : system.clock < deadlineOf since duration →
      Guarding canon host (deadlineOf since duration) duration table
        (Function.update system.managers index after) after) :
    (system.update index after table).Guarded canon host index since duration := by
  refine ⟨guarded.past, fun early => ?_⟩
  rw [update_self]
  exact guarding early

theorem Guarded.away (different : other ≠ index)
    (guarding : system.clock < deadlineOf since duration →
      Guarding canon host (deadlineOf since duration) duration table
        (Function.update system.managers other after) (system.managers index)) :
    (system.update other after table).Guarded canon host index since duration := by
  refine ⟨guarded.past, fun early => ?_⟩
  rw [update_other different.symm]
  exact guarding early

theorem Guarded.bystander (different : other ≠ index) (idle : after.phase.reschedules = false) :
    (system.update other after system.table).Guarded canon host index since duration := by
  refine guarded.away different fun early => (guarded.guarding early).other ?_
  intro revision expiry base phase
  rw [phase] at idle
  cases idle

theorem Guarded.settled (sound : system.Sound canon host)
    (early : system.clock < deadlineOf since duration) : Settled canon host system.table :=
  (sound index).settled (guarded.guarding early).known

theorem Guarded.of_same (sound : system.Sound canon host)
    (same : Settled canon host system.table → table = system.table)
    (kept : (system.update other after system.table).Guarded canon host index since duration) :
    (system.update other after table).Guarded canon host index since duration := by
  refine ⟨guarded.past, fun early => ?_⟩
  have rows := same (guarded.settled sound early)
  subst rows
  exact kept.guarding early

theorem Guarded.closed_away {secure : Bool} (sound : system.Sound canon host)
    (different : other ≠ index) (phase : (system.managers other).phase = .connected port secure) :
    (system.update other ((system.managers other).closed system.clock secure)
      system.table).Guarded canon host index since duration := by
  refine guarded.away different fun early => (guarded.guarding early).other ?_
  intro revision expiry base rescheduling record row matched
  rcases (system.managers other).closed_cases system.clock secure with
    same | ⟨-, extended⟩ | ⟨positive, partly, known, called⟩
  · rw [same] at rescheduling
    cases rescheduling
  · rw [extended] at rescheduling
    cases rescheduling
  · rw [called] at rescheduling
    cases rescheduling
    have client := sound other
    have counters : generations canon host system.table =
        (record.revision, record.policyEpoch) := by
      rw [generations, row.found]
    have held := client.held _ (mem_held_of_known known)
    have epoch := held.2.2.2 (by rw [counters]; exact matched)
    have notFull : (system.managers other).sts.stsDirtyFull = false := by
      cases full : (system.managers other).sts.stsDirtyFull with
      | false => rfl
      | true => exact absurd ⟨client.full full, full⟩ partly
    obtain ⟨same, found, lasts⟩ :=
      client.lasts known notFull (by rw [phase]; rfl) positive epoch
    rw [row.found] at found
    obtain rfl := some.inj (some.inj found)
    rw [← lasts, row.lasts]
    have bound := deadlineOf_le since duration
    have past := guarded.past
    omega

end

theorem Guarded.row_rescheduled {written : UInt64} {current record : StsRecord}
    (sound : system.Sound canon host)
    (phase : (system.managers other).phase = .rescheduling revision expiry base)
    (held : system.table.lookup (stsKey canon host) = some (some current))
    (expected : current.revision = revision) (grows : revision < written)
    (row : table.lookup (stsKey canon host) = some (some
      { current with untilMs := some (unixMilli expiry), revision := written }))
    (idle : after.phase.reschedules = false)
    (guards : RowGuards canon host (deadlineOf since duration) duration system.table
      system.managers record) :
    RowGuards canon host (deadlineOf since duration) duration table
      (Function.update system.managers other after)
      { current with untilMs := some (unixMilli expiry), revision := written } := by
  have found := guards.found
  rw [held] at found
  obtain rfl := some.inj (some.inj found)
  have later := guards.pending other revision expiry base phase expected.symm
  have stored : 0 < unixMilli expiry ∧
      deadlineOf since duration ≤ ofUnixMilli (unixMilli expiry) := by
    have positive := guards.positive
    unfold deadlineOf ofUnixMilli unixMilli at *
    omega
  refine ⟨row, guards.enforced, guards.port, guards.positive, ⟨_, rfl, stored⟩, guards.lasts, ?_⟩
  intro third expectedThird expiryThird baseThird phaseThird matched
  by_cases same : third = other
  · rw [same, Function.update_self] at phaseThird
    rw [phaseThird] at idle
    cases idle
  · rw [update_of_ne same] at phaseThird
    obtain ⟨_, member, -⟩ := sound.rescheduling phaseThird
    have behind := ((sound third).held _ member).2.1
    rw [generations, held] at behind
    have impossible := UInt64.lt_of_le_of_lt behind (expected ▸ grows)
    exact absurd matched (UInt64.ne_of_lt impossible)

theorem Guarded.published {fault : StsStatement → Bool} {entropy : Option (UInt64 × UInt64)}
    {port last : Int} {epoch : UInt64}
    (guarded : system.Guarded canon host index since duration)
    (sound : system.Sound canon host)
    (fresh : system.DrawsFresh canon host (.publish index fault entropy))
    (commits : system.commits canon host (.publish index fault entropy) = true)
    (phase : (system.managers index).phase = .publishing port expiry last base)
    (written : table.lookup (stsKey canon host) = some (some
      { port := port, untilMs := some (unixMilli expiry),
        duration := some (clampSTSDuration last), revision := revision, policyEpoch := epoch }))
    (valid : 0 < port ∧ port ≤ 65535 ∧ 0 < unixMilli expiry)
    (advances : Settled canon host system.table →
      Advances canon ⟨system.clock, fault, entropy⟩ host system.table revision epoch) :
    (system.update index { system.managers index with
        sts := (system.managers index).sts.published base (some (revision, epoch))
        phase := .connected (some port) true } table).Guarded canon host index since
          duration := by
  refine guarded.own fun early => ?_
  have guarding := guarded.guarding early
  have phased := (sound index).phased
  rw [PhaseSound, phase] at phased
  obtain ⟨-, -, unloaded, secure, uncleared⟩ := StsPhase.of_quiet (.connected (some port) true) rfl
  refine ⟨guarding.plaintext, rfl, guarding.port, guarding.expiry, guarding.lasts, secure,
    uncleared, ?_⟩
  cases guarding.kept with
  | publishing before later =>
    rw [phase] at before
    cases before
    have positive : 0 < deadlineOf since duration := by
      rw [later]
      unfold ofUnixMilli
      omega
    refine .row rfl ⟨written, rfl, ⟨valid.1, valid.2.1⟩, positive,
      ⟨_, rfl, valid.2.2, later.le⟩, decodedDuration_of_lasting phased.1 rfl, ?_⟩
      fun policy held => absurd held (unloaded policy)
    -- a reschedule under way has an older revision
    intro other pending pendingExpiry pendingBase pendingPhase matched
    by_cases same : other = index
    · rw [same, Function.update_self] at pendingPhase
      cases pendingPhase
    · rw [update_of_ne same] at pendingPhase
      obtain ⟨_, member, -⟩ := sound.rescheduling pendingPhase
      exact absurd matched (UInt64.ne_of_lt (sound.behind fresh commits advances member).1)
  | unwritten calm _ _ _ _ _ | row calm _ _ =>
    rw [phase] at calm
    cases calm

theorem Guarded.publishFailed {port last : Int}
    (guarded : system.Guarded canon host index since duration)
    (sound : system.Sound canon host)
    (phase : (system.managers index).phase = .publishing port expiry last base)
    (current : (system.managers index).sts.stsPolicyEpoch =
      (generations canon host system.table).2) :
    (system.update index { system.managers index with
        sts := (system.managers index).sts.published base none
        phase := .connected (some port) true } system.table).Guarded canon host index since
          duration := by
  refine guarded.own fun early => ?_
  have guarding := guarded.guarding early
  have phased := (sound index).phased
  rw [PhaseSound, phase] at phased
  obtain ⟨-, -, rfl, -⟩ := phased
  obtain ⟨-, -, unloaded, secure, uncleared⟩ := StsPhase.of_quiet (.connected (some port) true) rfl
  exact { guarding with
    secure := secure
    uncleared := uncleared
    kept := .unwritten rfl rfl rfl ((sound index).together.trans guarding.known) current
      fun policy held => absurd held (unloaded policy) }

theorem Guarded.rescheduled {written : UInt64} {current : StsRecord}
    (guarded : system.Guarded canon host index since duration)
    (sound : system.Sound canon host)
    (phase : (system.managers other).phase = .rescheduling revision expiry base)
    (held : system.table.lookup (stsKey canon host) = some (some current))
    (expected : current.revision = revision) (grows : revision < written)
    (row : table.lookup (stsKey canon host) = some (some
      { current with untilMs := some (unixMilli expiry), revision := written })) :
    (system.update other { system.managers other with
        sts := (system.managers other).sts.rescheduled base (some written)
        phase := .loading } table).Guarded canon host index since duration := by
  have rowed : ∀ {after : StsClient} {record : StsRecord}, after.phase.reschedules = false →
      RowGuards canon host (deadlineOf since duration) duration system.table
        system.managers record →
      RowGuards canon host (deadlineOf since duration) duration table
        (Function.update system.managers other after)
        { current with untilMs := some (unixMilli expiry), revision := written } :=
    Guarded.row_rescheduled sound phase held expected grows row
  by_cases own : other = index
  · subst own
    obtain ⟨-, -, partly⟩ := sound.rescheduling phase
    refine guarded.own fun early => ?_
    have guarding := guarded.guarding early
    obtain ⟨_, guards⟩ := guarding.rescheduling phase partly
    obtain ⟨-, -, unloaded, secure, uncleared⟩ := StsPhase.of_quiet .loading rfl
    exact ⟨guarding.plaintext, rfl, guarding.port, guarding.expiry, guarding.lasts, secure,
      uncleared, .row rfl (rowed rfl guards) fun policy held => absurd held (unloaded policy)⟩
  · refine guarded.away own fun early => ?_
    have guarding := guarded.guarding early
    refine { guarding with kept := ?_ }
    cases guarding.kept with
    | publishing before later => exact .publishing before later
    | unwritten unpublished dirty full known base loaded =>
      refine .unwritten unpublished dirty full known (base.trans ?_) loaded
      rw [generations, generations, held, row]
    | row unpublished guards loaded =>
      exact .row unpublished (rowed rfl guards) loaded

theorem Guarded.notRescheduled (guarded : system.Guarded canon host index since duration)
    (sound : system.Sound canon host)
    (phase : (system.managers index).phase = .rescheduling revision expiry base) :
    (system.update index { system.managers index with
        sts := (system.managers index).sts.rescheduled base none
        phase := .loading } system.table).Guarded canon host index since duration := by
  obtain ⟨-, -, partly⟩ := sound.rescheduling phase
  refine guarded.own fun early => ?_
  have guarding := guarded.guarding early
  obtain ⟨_, guards⟩ := guarding.rescheduling phase partly
  obtain ⟨-, -, unloaded, secure, uncleared⟩ := StsPhase.of_quiet .loading rfl
  exact { guarding with
    secure := secure
    uncleared := uncleared
    kept := .row rfl (guards.idle rfl) fun policy held => absurd held (unloaded policy) }

/-- Every calm event keeps what the last duration promised. -/
theorem Moves.guarded (moves : system.Moves canon host event next)
    (fresh : system.DrawsFresh canon host event) (sound : system.Sound canon host)
    (calm : system.Calm canon host index event)
    (guarded : system.Guarded canon host index since duration) :
    next.Guarded canon host index since duration := by
  cases moves with
  | tick elapsed =>
    have past := guarded.past
    refine ⟨?_, fun early => guarded.guarding (lt_of_le_of_lt ?_ early)⟩
    · show since ≤ system.clock + elapsed
      omega
    · show system.clock ≤ system.clock + elapsed
      omega
  | restart => exact guarded.bystander calm rfl
  | @read other _ _ _ phase _ decoded same =>
    refine guarded.of_same sound same ?_
    by_cases own : other = index
    · subst own
      refine guarded.own fun early => ?_
      exact (guarded.guarding early).read phase (same (guarded.settled sound early) ▸ decoded)
    · exact guarded.bystander own rfl
  | @readFailed other _ _ phase same =>
    refine guarded.of_same sound same ?_
    by_cases own : other = index
    · subst own
      refine guarded.own fun early => ?_
      have guarding := guarded.guarding early
      rw [guarding.plaintext, if_neg Bool.false_ne_true]
      exact guarding.rephase (by rw [phase]; rfl) rfl
    · refine guarded.bystander own ?_
      split <;> rfl
  | @settle other _ phase =>
    by_cases own : other = index
    · subst own
      exact guarded.own fun early => (guarded.guarding early).settle early phase
    · exact guarded.bystander own rfl
  | @dial other connects phase =>
    by_cases own : other = index
    · subst own
      refine guarded.own fun early => ?_
      have guarding := guarded.guarding early
      refine guarding.rephase (by rw [phase]; rfl) ?_
      cases connects with
      | false => rfl
      | true => exact guarding.effectiveAddr_secure early
    · refine guarded.bystander own ?_
      split <;> rfl
  | @advertise other _ _ _ phase =>
    by_cases own : other = index
    · subst own
      exact guarded.own fun early => (guarded.guarding early).advertised phase (calm rfl)
    · exact guarded.bystander own (advertised_idle phase)
  | @published other _ _ _ _ _ _ _ _ _ phase commits settled written valid advances =>
    by_cases own : other = index
    · subst own
      exact guarded.published sound fresh commits phase written valid advances
    · rw [Calm, if_neg own, commits] at calm
      cases calm
  | @publishFailed other _ _ _ _ _ _ _ phase fails same =>
    refine guarded.of_same sound same ?_
    by_cases own : other = index
    · subst own
      rw [Calm, if_pos rfl] at calm
      exact guarded.publishFailed sound phase
        (calm.resolve_left (by rw [fails]; exact Bool.false_ne_true))
    · exact guarded.bystander own rfl
  | @cleared other _ _ _ _ _ _ phase commits settled written advances =>
    by_cases own : other = index
    · subst own
      exact guarded.own fun early => absurd phase ((guarded.guarding early).uncleared _)
    · rw [Calm, if_neg own, commits] at calm
      cases calm
  | @clearFailed other _ _ _ _ phase fails same =>
    refine guarded.of_same sound same ?_
    by_cases own : other = index
    · subst own
      exact guarded.own fun early => absurd phase ((guarded.guarding early).uncleared _)
    · exact guarded.bystander own rfl
  | @close other port secure phase =>
    by_cases own : other = index
    · subst own
      refine guarded.own fun early => (guarded.guarding early).closed ?_ phase
      have bound := deadlineOf_le since duration
      have past := guarded.past
      omega
    · exact guarded.closed_away sound own phase
  | rescheduled phase settled held expected reschedulable grows row =>
    exact guarded.rescheduled sound phase held expected grows row
  | @notRescheduled other _ _ _ _ phase =>
    by_cases own : other = index
    · subst own
      exact guarded.notRescheduled sound phase
    · exact guarded.bystander own rfl

theorem Moves.received {value : Bytes}
    (moves : system.Moves canon host (.advertise index value) next)
    (sound : system.Sound canon host) (plaintext : (system.managers index).config.tls = false)
    (secure : (system.managers index).phase = .connected port true)
    (lasting : (parseSTS value).hasDuration = true) (positive : 0 < (parseSTS value).duration) :
    next.Guarded canon host index system.clock (parseSTS value).duration := by
  cases moves with
  | advertise phase =>
    rw [secure] at phase
    cases phase
    have phased := (sound index).phased
    rw [PhaseSound, secure] at phased
    obtain ⟨known, ports⟩ := phased plaintext
    obtain ⟨number, rfl, above⟩ := ports rfl
    have received : (system.managers index).advertised system.clock value (some number) true =
        { system.managers index with
          sts := (system.managers index).sts.applySTS system.clock number (parseSTS value).duration
          phase := .publishing number (system.clock + (parseSTS value).duration)
            (parseSTS value).duration (system.managers index).sts.base } := by
      simp [advertised, lasting, ne_of_gt positive]
    refine ⟨le_rfl, fun _ => ?_⟩
    rw [update_self, received]
    unfold StsState.applySTS
    rw [if_neg (ne_of_gt positive)]
    exact ⟨plaintext, known, above, ⟨_, rfl, deadlineOf_le _ _⟩, rfl, by rintro _ _ ⟨⟩,
      by rintro _ ⟨⟩, .publishing rfl rfl⟩

theorem calm_guarded (fixed : canon host = host) {start : StsSystem}
    (sound : start.Sound canon host) (guarded : start.Guarded canon host index since duration)
    (calm : Machine.Reaches (step canon host)
      (fun system event => system.Calm canon host index event ∧ system.DrawsFresh canon host event)
      start system) :
    system.Guarded canon host index since duration := by
  have both : system.Sound canon host ∧ system.Guarded canon host index since duration := by
    induction calm with
    | refl => exact ⟨sound, guarded⟩
    | tail _ _ met stepped ih =>
      obtain ⟨moves, soundNext⟩ := ih.1.moves fixed met.2 stepped
      exact ⟨soundNext, moves.guarded met.2 ih.1 met.1 ih.2⟩
  exact both.2

theorem Sound.store_decides {policy : StsPolicy} (sound : system.Sound canon host)
    (known : (system.managers index).sts.stsRevisionKnown = true)
    (other : policy.policyEpoch ≠ (system.managers index).sts.stsPolicyEpoch) :
    let state := (system.managers index).sts.loadSTS system.clock policy
    (policy.ok = true ∧ system.clock < policy.expiry →
      state.stsPort = policy.port ∧ state.stsUntil = some policy.expiry) ∧
    (¬ (policy.ok = true ∧ system.clock < policy.expiry) →
      (system.managers index).sts.stsSession = false → state.stsPort = 0) := by
  intro state
  have client := sound index
  rcases (system.managers index).sts.loadSTS_cases system.clock policy with
    ⟨dirty, -, superseded, -⟩ | ⟨kept, -, -, loads⟩
  · obtain ⟨baseKnown, base⟩ := client.base dirty
    rw [client.together, known] at baseKnown
    exact absurd ((superseded baseKnown).trans base) other
  · have taken : state = _ := loads
    constructor
    · rintro ⟨ok, later⟩
      rw [taken, if_pos (by rw [ok, Bool.true_and, decide_eq_true_eq]; exact later)]
      exact ⟨rfl, rfl⟩
    · intro expired session
      rw [taken, if_neg (by
        rw [Bool.and_eq_true, decide_eq_true_eq]
        exact expired), if_pos (by rw [session]; rfl)]

end StsSystem

/-! ### No downgrade -/

/-- In every run of the managers of a host, a manager with a plaintext configuration that has
received a duration over a secure connection dials securely until its end, as long as the events are
calm. When it finds another epoch in the store, the policy there decides. -/
theorem policy_not_downgraded (fixed : canon host = host) {start system : StsSystem}
    (initial : start.Initial)
    (reached : Machine.Reaches (step canon host) (DrawsFresh canon host) start system)
    {index : Nat} (plaintext : (system.managers index).config.tls = false) :
    (∀ port value learned later, (system.managers index).phase = .connected port true →
      (parseSTS value).hasDuration = true → 0 < (parseSTS value).duration →
      system.step canon host (.advertise index value) = some learned →
      Machine.Reaches (step canon host) (fun system event =>
        system.Calm canon host index event ∧ system.DrawsFresh canon host event) learned later →
      (later.managers index).phase = .ready →
      later.clock < deadlineOf system.clock (parseSTS value).duration →
        (effectiveAddr (later.managers index).config later.clock
          (later.managers index).sts).2 = true) ∧
    (∀ policy, (system.managers index).phase = .loaded policy →
      (system.managers index).sts.stsRevisionKnown = true →
      policy.policyEpoch ≠ (system.managers index).sts.stsPolicyEpoch →
        let state := (system.managers index).sts.loadSTS system.clock policy
        (policy.ok = true ∧ system.clock < policy.expiry →
          state.stsPort = policy.port ∧ state.stsUntil = some policy.expiry) ∧
        (¬ (policy.ok = true ∧ system.clock < policy.expiry) →
          (system.managers index).sts.stsSession = false → state.stsPort = 0)) := by
  have sound := reached_sound fixed initial reached
  refine ⟨fun port value learned later secure lasting positive received calm _ early => ?_,
    fun policy _ known other => sound.store_decides known other⟩
  have fresh : system.DrawsFresh canon host (.advertise index value) := trivial
  obtain ⟨moves, soundLearned⟩ := sound.moves fixed fresh received
  have guarded := moves.received sound plaintext secure lasting positive
  exact ((calm_guarded fixed soundLearned guarded calm).guarding early).effectiveAddr_secure early

/-! ### Two runs -/

/-- The events that bring no draws. -/
def StsEvent.undrawn : StsEvent → Bool
  | .publish _ _ (some _) => false
  | _ => true

theorem StsEvent.fresh_of_undrawn (undrawn : event.undrawn = true) (system : StsSystem) :
    system.DrawsFresh canon host event := by
  unfold StsSystem.DrawsFresh
  split
  · cases undrawn
  · trivial

theorem fresh_of_all (undrawn : events.all StsEvent.undrawn = true) :
    ∀ event ∈ events, ∀ system : StsSystem, system.DrawsFresh canon host event :=
  fun event member => event.fresh_of_undrawn (all_eq_true.mp undrawn event member)

def exampleHost : Bytes := lit "irc.example"

/-- Managers that are configured for cleartext, and an empty store. -/
def plainStart : StsSystem :=
  { clock := 1800000000 * 10 ^ 9, table := ∅
    managers := fun _ => { config := ⟨false, some 6667⟩ } }

def answers : StsStatement → Bool := fun _ => false

def reload : List StsEvent := [.read 0 answers, .settle 0]

/-- Manager 0 learns the secure port and dials it. -/
def toSecure : List StsEvent :=
  reload ++ [.dial 0 true, .advertise 0 (lit "port=6697")] ++ reload ++ [.dial 0 true]

def secured : StsSystem :=
  (Machine.run (step id exampleHost) plainStart toSecure).get (by decide +kernel)

theorem secured_reached :
    Machine.Reaches (step id exampleHost) (DrawsFresh id exampleHost) plainStart secured :=
  Machine.Reaches.refl.run (fresh_of_all (by decide)) (some_get _).symm

/-- It receives a duration of a hundred seconds, -/
def hundredLearned : StsSystem :=
  (secured.step id exampleHost (.advertise 0 (lit "duration=100"))).get (by decide +kernel)

theorem step_hundredLearned :
    secured.step id exampleHost (.advertise 0 (lit "duration=100")) = some hundredLearned :=
  (some_get _).symm

/-- which it stores, -/
def hundredStored : StsSystem :=
  (hundredLearned.step id exampleHost (.publish 0 answers none)).get (by decide +kernel)

theorem step_hundredStored : hundredLearned.step id exampleHost (.publish 0 answers none) =
    some hundredStored :=
  (some_get _).symm

/-- and disconnects, and is back after half of them. -/
def halfTime : List StsEvent :=
  [.close 0, .reschedule 0 answers, .tick (50 * 10 ^ 9)] ++ reload

def halfWay : StsSystem :=
  (Machine.run (step id exampleHost) hundredStored halfTime).get (by decide +kernel)

theorem policy_not_downgraded_halfTime :
    (halfWay.managers 0).phase = .ready ∧
      (effectiveAddr (halfWay.managers 0).config halfWay.clock (halfWay.managers 0).sts).2 =
        true := by
  have ready : (halfWay.managers 0).phase = .ready := by decide +kernel
  have stored : hundredLearned.Calm id exampleHost 0 (.publish 0 answers none) := by
    rw [StsSystem.Calm, if_pos rfl]
    exact .inl (by decide +kernel)
  have quiet : ∀ event ∈ halfTime, ∀ system : StsSystem, system.Calm id exampleHost 0 event := by
    simp only [halfTime, reload, cons_append, nil_append, forall_mem_cons]
    exact ⟨fun _ => trivial, fun _ => trivial, fun _ => trivial, fun _ => trivial,
      fun _ => trivial, nofun⟩
  have calm : Machine.Reaches (step id exampleHost) (fun system event =>
      system.Calm id exampleHost 0 event ∧ system.DrawsFresh id exampleHost event)
      hundredLearned halfWay :=
    (Machine.Reaches.refl.tail _ ⟨stored, StsEvent.fresh_of_undrawn rfl _⟩
      step_hundredStored).run (fun event member system =>
        ⟨quiet event member system, fresh_of_all (by decide) event member system⟩)
      (some_get _).symm
  exact ⟨ready, (policy_not_downgraded rfl (fun _ => ⟨rfl, rfl⟩) secured_reached
    (by decide +kernel)).1 (some 6697) (lit "duration=100") hundredLearned halfWay
    (by decide +kernel) (by decide +kernel) (by decide +kernel) step_hundredLearned calm
    ready (by decide +kernel)⟩

/-- What excuses a cleartext dial before the end of a duration: a duration of zero, or another
manager that commits a policy or tombstone. -/
def StsSystem.Unexcused (canon : Bytes → Bytes) (host : Bytes) (index : Nat)
    (system : StsSystem) : StsEvent → Prop
  | .restart other _ => other ≠ index
  | .advertise other value => other = index → (parseSTS value).hasDuration = true →
      (parseSTS value).duration ≠ 0
  | .publish other fault entropy => other ≠ index →
      system.commits canon host (.publish other fault entropy) = false
  | _ => True

def shortened : List StsEvent :=
  [.publish 0 answers none, .advertise 0 (lit "duration=1"), .publish 0 answers none, .close 0,
    .reschedule 0 answers, .tick (2 * 10 ^ 9)] ++ reload

def cutShort : StsSystem :=
  (Machine.run (step id exampleHost) hundredLearned shortened).get (by decide +kernel)

/-- A shorter duration takes the place of a longer one: two seconds into a hundred the manager
dials in the clear, with no event that excuses it. -/
theorem shortened_downgrades :
    ∃ system learned later, plainStart.Initial ∧
      Machine.Reaches (step id exampleHost) (DrawsFresh id exampleHost) plainStart system ∧
      (system.managers 0).config.tls = false ∧
      (system.managers 0).phase = .connected (some 6697) true ∧
      (parseSTS (lit "duration=100")).hasDuration = true ∧
      system.step id exampleHost (.advertise 0 (lit "duration=100")) = some learned ∧
      Machine.Reaches (step id exampleHost) (fun system event =>
        system.Unexcused id exampleHost 0 event ∧ system.DrawsFresh id exampleHost event)
        learned later ∧
      (later.managers 0).phase = .ready ∧
      later.clock < deadlineOf system.clock (parseSTS (lit "duration=100")).duration ∧
      (effectiveAddr (later.managers 0).config later.clock (later.managers 0).sts).2 = false := by
  have unexcused : ∀ event ∈ shortened, ∀ system : StsSystem,
      system.Unexcused id exampleHost 0 event := by
    simp only [shortened, reload, cons_append, nil_append, forall_mem_cons]
    refine ⟨fun _ other => absurd rfl other, fun _ _ _ => by decide +kernel,
      fun _ other => absurd rfl other, fun _ => trivial, fun _ => trivial, fun _ => trivial,
      fun _ => trivial, fun _ => trivial, nofun⟩
  exact ⟨secured, hundredLearned, cutShort,
    fun _ => ⟨rfl, rfl⟩, secured_reached, by decide +kernel, by decide +kernel,
    by decide +kernel, step_hundredLearned,
    Machine.Reaches.refl.run (fun event member system =>
      ⟨unexcused event member system, fresh_of_all (by decide) event member system⟩)
      (some_get _).symm,
    by decide +kernel, by decide +kernel, by decide +kernel⟩

/-- In every interleaving the counters of a manager are not ahead of the row and agree with it at
its revision, and a duration that is written is the row's while the epoch is. -/
theorem managers_agree (fixed : canon host = host) {start : StsSystem} (initial : start.Initial)
    (reached : Machine.Reaches (step canon host) (DrawsFresh canon host) start system)
    (index : Nat) :
    let sts := (system.managers index).sts
    sts.stsRevisionKnown = true →
      NotAhead canon host system.table (sts.stsRevision, sts.stsPolicyEpoch) ∧
        (sts.stsDirtyFull = false → (system.managers index).phase.publishes = false →
          0 < sts.stsLastDur → sts.stsPolicyEpoch = (generations canon host system.table).2 →
            RowLasts canon host system.table sts.stsLastDur) := by
  intro sts known
  have sound := reached_sound fixed initial reached index
  exact ⟨sound.held _ (mem_held_of_known known), sound.lasts known⟩

/-- Once the hundred seconds are stored, the manager has the counters of the row, and the row lasts
as long as the manager knows it does. -/
theorem managers_agree_stored :
    generations id exampleHost hundredStored.table = (1, 1) ∧
      NotAhead id exampleHost hundredStored.table (1, 1) ∧
      RowLasts id exampleHost hundredStored.table (100 * 10 ^ 9) := by
  have reached : Machine.Reaches (step id exampleHost) (DrawsFresh id exampleHost) plainStart
      hundredStored :=
    (secured_reached.tail _ (StsEvent.fresh_of_undrawn rfl _) step_hundredLearned).tail _
      (StsEvent.fresh_of_undrawn rfl _) step_hundredStored
  have counters : ((hundredStored.managers 0).sts.stsRevision,
      (hundredStored.managers 0).sts.stsPolicyEpoch) = (1, 1) := by decide +kernel
  have lasts : (hundredStored.managers 0).sts.stsLastDur = 100 * 10 ^ 9 := by decide +kernel
  have agree := managers_agree rfl (fun _ => ⟨rfl, rfl⟩) reached 0 (by decide +kernel)
  rw [counters, lasts] at agree
  exact ⟨by decide +kernel, agree.1, agree.2 (by decide +kernel) (by decide +kernel)
    (by decide) (by decide +kernel)⟩

end Ircthing.Irc
