/-
This file proves how the copies of the managers of a host agree with its row.
-/

import Ircthing.Irc.StsManager
import Mathlib.Tactic.Ring

namespace Ircthing.Irc

open Library Effect Store List StsRecord Option StsSystem

variable {canon : Bytes → Bytes} {host : Bytes} {policy : StsPolicy} {state : StsState}
  {pair : UInt64 × UInt64} {record : StsRecord} {client : StsClient} {table : StsTable}
  {phase : StsPhase} {duration : Int} {epoch : UInt64} {secure : Bool} {other : Nat}

/-! ### What an event can do -/

inductive StsSystem.Moves (canon : Bytes → Bytes) (host : Bytes) (system : StsSystem) :
    StsEvent → StsSystem → Prop
  | tick (elapsed : Nat) :
      Moves canon host system (.tick elapsed) { system with clock := system.clock + elapsed }
  | restart (index : Nat) (config : StsConfig) :
      Moves canon host system (.restart index config)
        (system.update index { config := config } system.table)
  | read {index : Nat} {fault : StsStatement → Bool} {policy : StsPolicy} {table : StsTable}
      (phase : (system.managers index).phase = .loading) (settled : Settled canon host table)
      (decoded : decodeSTSPolicy host (table.lookup (stsKey canon host)) = .ok policy)
      (same : Settled canon host system.table → table = system.table) :
      Moves canon host system (.read index fault)
        (system.update index { system.managers index with phase := .loaded policy } table)
  | readFailed {index : Nat} {fault : StsStatement → Bool} {table : StsTable}
      (phase : (system.managers index).phase = .loading)
      (same : Settled canon host system.table → table = system.table) :
      Moves canon host system (.read index fault)
        (system.update index
          { system.managers index with
            phase := if (system.managers index).config.tls then .ready else .loading } table)
  | settle {index : Nat} {policy : StsPolicy}
      (phase : (system.managers index).phase = .loaded policy) :
      Moves canon host system (.settle index)
        (system.update index
          { system.managers index with
            sts := (system.managers index).sts.loadSTS system.clock policy, phase := .ready }
          system.table)
  | dial {index : Nat} (connects : Bool) (phase : (system.managers index).phase = .ready) :
      Moves canon host system (.dial index connects)
        (system.update index
          { system.managers index with
            phase :=
              if connects then
                .connected
                  (effectiveAddr (system.managers index).config system.clock
                    (system.managers index).sts).1
                  (effectiveAddr (system.managers index).config system.clock
                    (system.managers index).sts).2
              else .loading }
          system.table)
  | advertise {index : Nat} {value : Bytes} {port : Option Int} {secure : Bool}
      (phase : (system.managers index).phase = .connected port secure) :
      Moves canon host system (.advertise index value)
        (system.update index
          ((system.managers index).advertised system.clock value port secure) system.table)
  | published {index : Nat} {fault : StsStatement → Bool} {entropy : Option (UInt64 × UInt64)}
      {port expiry duration : Int} {base : StsState.Base} {revision epoch : UInt64}
      {table : StsTable}
      (phase : (system.managers index).phase = .publishing port expiry duration base)
      (commits : system.commits canon host (.publish index fault entropy) = true)
      (settled : Settled canon host table)
      (written : table.lookup (stsKey canon host) = some (some
        { port := port, untilMs := some (unixMilli expiry),
          duration := some (clampSTSDuration duration), revision := revision,
          policyEpoch := epoch }))
      (valid : 0 < port ∧ port ≤ 65535 ∧ 0 < unixMilli expiry)
      (advances : Settled canon host system.table →
        Advances canon ⟨system.clock, fault, entropy⟩ host system.table revision epoch) :
      Moves canon host system (.publish index fault entropy)
        (system.update index
          { system.managers index with
            sts := (system.managers index).sts.published base (some (revision, epoch))
            phase := .connected (some port) true } table)
  | publishFailed {index : Nat} {fault : StsStatement → Bool}
      {entropy : Option (UInt64 × UInt64)} {port expiry duration : Int} {base : StsState.Base}
      {table : StsTable}
      (phase : (system.managers index).phase = .publishing port expiry duration base)
      (fails : system.commits canon host (.publish index fault entropy) = false)
      (same : Settled canon host system.table → table = system.table) :
      Moves canon host system (.publish index fault entropy)
        (system.update index
          { system.managers index with
            sts := (system.managers index).sts.published base none
            phase := .connected (some port) true } table)
  | cleared {index : Nat} {fault : StsStatement → Bool} {entropy : Option (UInt64 × UInt64)}
      {port : Int} {revision epoch : UInt64} {table : StsTable}
      (phase : (system.managers index).phase = .clearing port)
      (commits : system.commits canon host (.publish index fault entropy) = true)
      (settled : Settled canon host table)
      (written : table.lookup (stsKey canon host) = some (some
        { revision := revision, policyEpoch := epoch, disabled := true }))
      (advances : Settled canon host system.table →
        Advances canon ⟨system.clock, fault, entropy⟩ host system.table revision epoch) :
      Moves canon host system (.publish index fault entropy)
        (system.update index
          { system.managers index with
            sts := (system.managers index).sts.cleared (some (revision, epoch))
            phase := .connected (some port) true } table)
  | clearFailed {index : Nat} {fault : StsStatement → Bool}
      {entropy : Option (UInt64 × UInt64)} {port : Int} {table : StsTable}
      (phase : (system.managers index).phase = .clearing port)
      (fails : system.commits canon host (.publish index fault entropy) = false)
      (same : Settled canon host system.table → table = system.table) :
      Moves canon host system (.publish index fault entropy)
        (system.update index
          { system.managers index with
            sts := (system.managers index).sts.cleared none
            phase := .connected (some port) true } table)
  | close {index : Nat} {port : Option Int} {secure : Bool}
      (phase : (system.managers index).phase = .connected port secure) :
      Moves canon host system (.close index)
        (system.update index ((system.managers index).closed system.clock secure) system.table)
  | rescheduled {index : Nat} {fault : StsStatement → Bool} {revision next : UInt64}
      {expiry : Int} {base : StsState.Base} {current : StsRecord} {table : StsTable}
      (phase : (system.managers index).phase = .rescheduling revision expiry base)
      (settled : Settled canon host table)
      (held : system.table.lookup (stsKey canon host) = some (some current))
      (expected : current.revision = revision) (reschedulable : current.Reschedulable)
      (grows : revision < next)
      (written : table.lookup (stsKey canon host) = some (some
        { current with untilMs := some (unixMilli expiry), revision := next })) :
      Moves canon host system (.reschedule index fault)
        (system.update index
          { system.managers index with
            sts := (system.managers index).sts.rescheduled base (some next)
            phase := .loading } table)
  | notRescheduled {index : Nat} {fault : StsStatement → Bool} {revision : UInt64}
      {expiry : Int} {base : StsState.Base}
      (phase : (system.managers index).phase = .rescheduling revision expiry base) :
      Moves canon host system (.reschedule index fault)
        (system.update index
          { system.managers index with
            sts := (system.managers index).sts.rescheduled base none
            phase := .loading } system.table)

theorem StsSystem.moves_of_step (fixed : canon host = host) {system next : StsSystem}
    {event : StsEvent}
    (known : ∀ index revision expiry base,
      (system.managers index).phase = .rescheduling revision expiry base →
        Settled canon host system.table)
    (stepped : system.step canon host event = some next) :
    system.Moves canon host event next := by
  cases event with
  | tick elapsed =>
    obtain rfl := some.inj stepped
    exact .tick elapsed
  | restart index config =>
    obtain rfl := some.inj stepped
    exact .restart index config
  | read _ fault =>
    simp only [step] at stepped
    split at stepped
    next phase =>
      have spec := (wp_iff _ _ _ _).mp
        (stsPolicy_spec fixed ⟨system.clock, fault, none⟩ system.table)
      split at stepped
      next policy table ended =>
        obtain rfl := some.inj stepped
        obtain ⟨settled, decoded, same⟩ := spec.1 policy table ended
        exact .read phase settled decoded same
      next reason table ended =>
        obtain rfl := some.inj stepped
        exact .readFailed phase (spec.2 reason table ended)
    · cases stepped
  | settle =>
    simp only [step] at stepped
    split at stepped
    next policy phase =>
      obtain rfl := some.inj stepped
      exact .settle phase
    · cases stepped
  | dial _ connects =>
    simp only [step] at stepped
    split at stepped
    next phase =>
      obtain rfl := some.inj stepped
      exact .dial connects phase
    · cases stepped
  | advertise =>
    simp only [step] at stepped
    split at stepped
    next port secure phase =>
      obtain rfl := some.inj stepped
      exact .advertise phase
    · cases stepped
  | publish index fault entropy =>
    simp only [step] at stepped
    split at stepped
    next port expiry duration base phase =>
      obtain rfl := some.inj stepped
      have spec := (wp_iff _ _ _ _).mp (setSTSPolicy_spec fixed
        ⟨system.clock, fault, entropy⟩ port expiry duration system.table)
      have commits : system.commits canon host (.publish index fault entropy) =
          (exec (setSTSPolicy canon ⟨system.clock, fault, entropy⟩ host port expiry
            duration) system.table).1.isOk := by
        simp only [commits, phase]
      rcases ended : exec (setSTSPolicy canon ⟨system.clock, fault, entropy⟩ host port
        expiry duration) system.table with ⟨reason | ⟨revision, epoch⟩, table⟩
      · rw [ended] at commits
        exact .publishFailed phase commits (spec.2 reason table ended)
      · rw [ended] at commits
        obtain ⟨settled, written, valid, advances⟩ := spec.1 (revision, epoch) table ended
        exact .published phase commits settled written valid advances
    next port phase =>
      obtain rfl := some.inj stepped
      have spec := (wp_iff _ _ _ _).mp
        (clearSTSPolicy_spec fixed ⟨system.clock, fault, entropy⟩ system.table)
      have commits : system.commits canon host (.publish index fault entropy) =
          (exec (clearSTSPolicy canon ⟨system.clock, fault, entropy⟩ host)
            system.table).1.isOk := by
        simp only [commits, phase]
      rcases ended : exec (clearSTSPolicy canon ⟨system.clock, fault, entropy⟩ host)
        system.table with ⟨reason | ⟨revision, epoch⟩, table⟩
      · rw [ended] at commits
        exact .clearFailed phase commits (spec.2 reason table ended)
      · rw [ended] at commits
        obtain ⟨settled, written, advances⟩ := spec.1 (revision, epoch) table ended
        exact .cleared phase commits settled written advances
    · cases stepped
  | close =>
    simp only [step] at stepped
    split at stepped
    next port secure phase =>
      obtain rfl := some.inj stepped
      exact .close phase
    · cases stepped
  | reschedule index fault =>
    simp only [step] at stepped
    split at stepped
    next revision expiry base phase =>
      obtain rfl := some.inj stepped
      have spec := (wp_iff _ _ _ _).mp (rescheduleSTSPolicy_spec fixed
        ⟨system.clock, fault, none⟩ revision expiry (known index revision expiry base phase))
      rcases ended : exec (rescheduleSTSPolicy canon ⟨system.clock, fault, none⟩ host
        revision expiry) system.table with ⟨reason | ⟨next, applied⟩, table⟩
      · obtain rfl := spec.2 reason table ended
        exact .notRescheduled phase
      · obtain ⟨done, skipped⟩ := spec.1 (next, applied) table ended
        cases applied with
        | false =>
          obtain rfl := skipped rfl
          exact .notRescheduled phase
        | true =>
          obtain ⟨settled, _, held, expected, reschedulable, grows, written⟩ := done rfl
          exact .rescheduled phase settled held expected reschedulable grows written
    · cases stepped

/-! ### What every manager keeps -/

def Lasting (duration : Int) : Prop :=
  ∃ seconds : Int, 0 < seconds ∧ seconds ≤ maxSTSSeconds ∧ duration = seconds * 10 ^ 9

theorem decodedDuration_of_lasting (lasting : Lasting duration)
    (kept : record.duration = some (clampSTSDuration duration)) :
    record.decodedDuration = duration := by
  obtain ⟨seconds, _, bounded, rfl⟩ := lasting
  have milliseconds : (seconds * 10 ^ 9).tdiv (10 ^ 6) = seconds * 1000 := by
    rw [show seconds * 10 ^ 9 = seconds * 1000 * 10 ^ 6 by ring]
    exact Int.mul_tdiv_cancel _ (by decide)
  have bound : seconds * 1000 ≤ maxSTSDurationMs := by
    unfold maxSTSSeconds at bounded
    unfold maxSTSDurationMs
    omega
  have clamped : clampSTSDuration (seconds * 10 ^ 9) = seconds * 1000 := by
    rw [clampSTSDuration, milliseconds, min_eq_left bound]
    exact max_eq_right (by omega)
  rw [decodedDuration, kept, clamped]
  dsimp only
  rw [if_pos ⟨by omega, bound⟩]
  ring

def RowLasts (canon : Bytes → Bytes) (host : Bytes) (table : StsTable) (duration : Int) : Prop :=
  ∃ record : StsRecord, table.lookup (stsKey canon host) = some (some record) ∧
    record.decodedDuration = duration

/-- A pair of counters that is not ahead of the row, and that has its epoch when it has its
revision. -/
def NotAhead (canon : Bytes → Bytes) (host : Bytes) (table : StsTable)
    (pair : UInt64 × UInt64) : Prop :=
  Settled canon host table ∧ pair.1 ≤ (generations canon host table).1 ∧
    pair.2 ≤ (generations canon host table).2 ∧
      (pair.1 = (generations canon host table).1 → pair.2 = (generations canon host table).2)

def StsClient.PhaseSound (canon : Bytes → Bytes) (host : Bytes) (table : StsTable)
    (client : StsClient) : Prop :=
  match client.phase with
  | .loading => True
  | .loaded policy => policy.ok = true →
      policy.policyEpoch = (generations canon host table).2 →
        RowLasts canon host table policy.duration
  | .ready => client.config.tls = false → client.sts.stsRevisionKnown = true
  | .connected port secure => client.config.tls = false →
      client.sts.stsRevisionKnown = true ∧
        (secure = true → ∃ number, port = some number ∧ 0 < number)
  | .publishing port _ duration base =>
      Lasting duration ∧ client.sts.stsLastDur = duration ∧ base = client.sts.base ∧
        (client.config.tls = false → client.sts.stsRevisionKnown = true ∧ 0 < port)
  | .clearing port => client.sts.stsLastDur = 0 ∧
      (client.config.tls = false → client.sts.stsRevisionKnown = true ∧ 0 < port)
  | .rescheduling revision _ base =>
      client.sts.stsRevisionKnown = true ∧ revision = client.sts.stsRevision ∧
        base = client.sts.base ∧ client.sts.stsDirtyFull = false

def StsPhase.publishes : StsPhase → Bool
  | .publishing _ _ _ _ => true
  | _ => false

structure StsClient.Sound (canon : Bytes → Bytes) (host : Bytes) (table : StsTable)
    (client : StsClient) : Prop where
  together : client.sts.stsPolicyEpochKnown = client.sts.stsRevisionKnown
  held : ∀ pair ∈ client.held, NotAhead canon host table pair
  lasts : client.sts.stsRevisionKnown = true → client.sts.stsDirtyFull = false →
    client.phase.publishes = false → 0 < client.sts.stsLastDur →
      client.sts.stsPolicyEpoch = (generations canon host table).2 →
        RowLasts canon host table client.sts.stsLastDur
  session : client.sts.stsSession = true → client.sts.stsLastDur = 0
  full : client.sts.stsDirtyFull = true → client.sts.stsDirty = true
  base : client.sts.stsDirty = true →
    client.sts.stsDirtyBaseEpochKnown = client.sts.stsPolicyEpochKnown ∧
      client.sts.stsDirtyBaseEpoch = client.sts.stsPolicyEpoch
  expiryOnly : client.sts.stsDirty = true → client.sts.stsDirtyFull = false →
    client.sts.stsRevisionKnown = true
  phased : client.PhaseSound canon host table

theorem StsState.mem_held :
    pair ∈ state.held ↔
      state.stsRevisionKnown = true ∧ pair = (state.stsRevision, state.stsPolicyEpoch) := by
  unfold StsState.held
  split <;> simp_all

theorem StsClient.mem_held (nothing : client.phase.held = []) :
    pair ∈ client.held ↔ client.sts.stsRevisionKnown = true ∧
      pair = (client.sts.stsRevision, client.sts.stsPolicyEpoch) := by
  rw [StsClient.held, nothing, append_nil, StsState.mem_held]

theorem StsClient.mem_held_of_known (known : client.sts.stsRevisionKnown = true) :
    (client.sts.stsRevision, client.sts.stsPolicyEpoch) ∈ client.held :=
  mem_append_left _ (StsState.mem_held.mpr ⟨known, rfl⟩)

namespace StsClient.Sound

variable {table next : StsTable} {client : StsClient}

section

variable (sound : client.Sound canon host table)
include sound

theorem settled (known : client.sts.stsRevisionKnown = true) : Settled canon host table :=
  (sound.held _ (client.mem_held_of_known known)).1

theorem held_eq_nil (unsettled : ¬ Settled canon host table) : client.held = [] :=
  eq_nil_iff_forall_not_mem.mpr fun pair member => unsettled (sound.held pair member).1

theorem outdated (newer : ∀ pair ∈ client.held, Settled canon host next ∧
      pair.1 < (generations canon host next).1 ∧ pair.2 < (generations canon host next).2) :
    client.Sound canon host next := by
  refine { sound with held := ?_, lasts := ?_, phased := ?_ }
  · intro pair member
    have above := newer pair member
    exact ⟨above.1, UInt64.le_of_lt above.2.1, UInt64.le_of_lt above.2.2,
      fun same => absurd same (UInt64.ne_of_lt above.2.1)⟩
  · intro known _ _ _ same
    exact absurd same (UInt64.ne_of_lt (newer _ (client.mem_held_of_known known)).2.2)
  · have phased := sound.phased
    unfold StsClient.PhaseSound at phased ⊢
    split
    · trivial
    next policy phase =>
      intro _ same
      refine absurd same (UInt64.ne_of_lt (newer (policy.revision, policy.policyEpoch) ?_).2.2)
      rw [StsClient.held, phase]
      exact mem_append_right _ (mem_singleton_self _)
    all_goals simp_all

theorem extended (settled : Settled canon host next)
    (grows : (generations canon host table).1 < (generations canon host next).1)
    (same : (generations canon host next).2 = (generations canon host table).2)
    (keeps : ∀ duration, RowLasts canon host table duration →
      RowLasts canon host next duration) :
    client.Sound canon host next := by
  refine { sound with held := ?_, lasts := ?_, phased := ?_ }
  · intro pair member
    have above := UInt64.lt_of_le_of_lt (sound.held pair member).2.1 grows
    exact ⟨settled, UInt64.le_of_lt above, same ▸ (sound.held pair member).2.2.1,
      fun equal => absurd equal (UInt64.ne_of_lt above)⟩
  · intro known full publishes positive epoch
    exact keeps _ (sound.lasts known full publishes positive (epoch.trans same))
  · have phased := sound.phased
    unfold StsClient.PhaseSound at phased ⊢
    split
    · trivial
    next policy phase =>
      rw [phase] at phased
      exact fun ok epoch => keeps _ (phased ok (epoch.trans same))
    all_goals simp_all

theorem unchanged (same : Settled canon host table → next = table) :
    client.Sound canon host next := by
  by_cases before : Settled canon host table
  · rw [same before]
    exact sound
  · refine sound.outdated fun pair member => ?_
    rw [sound.held_eq_nil before] at member
    cases member

theorem rephase (nothing : phase.held = []) (unpublished : client.phase.publishes = false)
    (phased : { client with phase := phase }.PhaseSound canon host table) :
    { client with phase := phase }.Sound canon host table := by
  refine { sound with held := ?_, lasts := ?_, phased := phased }
  · intro pair member
    obtain ⟨known, rfl⟩ := (StsClient.mem_held nothing).mp member
    exact sound.held _ (client.mem_held_of_known known)
  · exact fun known full _ => sound.lasts known full unpublished

end

end StsClient.Sound

theorem StsState.loadSTS_cases (now : Int) (policy : StsPolicy) (state : StsState) :
    (state.stsDirty = true ∧ state.active now = true ∧
      (state.stsDirtyBaseEpochKnown = true → policy.policyEpoch = state.stsDirtyBaseEpoch) ∧
        state.loadSTS now policy = { state.learn policy.revision policy.policyEpoch with
            stsDirtyBaseEpoch := policy.policyEpoch, stsDirtyBaseEpochKnown := true }) ∨
    ∃ kept : StsState, (kept = state.clean ∨ state.stsDirty = false ∧ kept = state) ∧
      ¬ (state.stsDirty = true ∧ state.stsDirtyFull = true ∧ state.active now = true ∧
        policy.policyEpoch = state.stsDirtyBaseEpoch) ∧
      state.loadSTS now policy = if policy.ok && now < policy.expiry then
          { kept.learn policy.revision policy.policyEpoch with
            stsPort := policy.port, stsUntil := some policy.expiry
            stsLastDur := policy.duration, stsSession := false }
        else if !state.stsSession then
          { kept.learn policy.revision policy.policyEpoch with
            stsPort := 0, stsUntil := none, stsLastDur := 0 }
        else kept.learn policy.revision policy.policyEpoch := by
  unfold StsState.loadSTS
  cases dirty : state.stsDirty with
  | false =>
    refine .inr ⟨state, .inr ⟨rfl, rfl⟩, fun both => (by cases both.1), rfl⟩
  | true =>
    simp only [if_true, StsState.resolveSTSDirtyLocked]
    split
    next retained =>
      simp only [Bool.and_eq_true, Bool.not_eq_true', Bool.and_eq_false_iff, bne_eq_false_iff_eq]
        at retained
      refine .inl ⟨trivial, retained.1.2, fun known => ?_, rfl⟩
      exact retained.1.1.resolve_left fun unknown => (by rw [known] at unknown; cases unknown)
    next dropped =>
      refine .inr ⟨state.clean, .inl rfl, ?_, rfl⟩
      rintro ⟨-, full, active, same⟩
      refine dropped ?_
      simp [full, active, same]

theorem StsClient.closed_cases (now : Int) (secure : Bool) (client : StsClient) :
    client.closed now secure = { client with phase := .loading } ∨
    (0 < client.sts.stsLastDur ∧ client.closed now secure = { client with
          sts := { client.sts with stsUntil := some (now + client.sts.stsLastDur) }
          phase := .loading }) ∨
    (0 < client.sts.stsLastDur ∧ ¬ (client.sts.stsDirty = true ∧ client.sts.stsDirtyFull = true) ∧
      client.sts.stsRevisionKnown = true ∧
      client.closed now secure = { client with
          sts := { client.sts with stsUntil := some (now + client.sts.stsLastDur) }
          phase := .rescheduling client.sts.stsRevision (now + client.sts.stsLastDur)
            client.sts.base }) := by
  unfold StsClient.closed StsState.rescheduleSTS
  by_cases isSecure : secure = true
  · by_cases idle : client.sts.stsLastDur ≤ 0 ∨ client.sts.stsPort = 0
    · left
      simp only [if_pos isSecure, if_pos idle]
    · have positive : 0 < client.sts.stsLastDur := by
        rw [not_or, not_le] at idle
        exact idle.1
      by_cases keeps :
          (client.sts.stsDirty && client.sts.stsDirtyFull || !client.sts.stsRevisionKnown) = true
      · refine .inr (.inl ⟨positive, ?_⟩)
        simp only [if_pos isSecure, if_neg idle, if_pos keeps]
      · refine .inr (.inr ⟨positive, fun both => keeps ?_, ?_, ?_⟩)
        · rw [both.1, both.2]
          rfl
        · cases known : client.sts.stsRevisionKnown with
          | true => rfl
          | false =>
            rw [known, Bool.not_false, Bool.or_true] at keeps
            exact absurd rfl keeps
        · simp only [if_pos isSecure, if_neg idle, if_neg keeps]
  · left
    simp only [if_neg isSecure]

theorem row_of_decoded
    (decoded : decodeSTSPolicy host (table.lookup (stsKey canon host)) = .ok policy) :
    generations canon host table = (policy.revision, policy.policyEpoch) ∧
      (policy.ok = true → RowLasts canon host table policy.duration) := by
  unfold generations RowLasts
  revert decoded
  rcases table.lookup (stsKey canon host) with _ | _ | record <;> intro decoded
  · cases decoded
    exact ⟨rfl, nofun⟩
  · cases decoded
  · rw [decodeSTSPolicy_record] at decoded
    split at decoded
    · cases decoded
      unfold policy
      cases record.disabled with
      | true => exact ⟨rfl, nofun⟩
      | false => exact ⟨rfl, fun _ => ⟨record, rfl, rfl⟩⟩
    · cases decoded

namespace StsClient.Sound

variable {table : StsTable} {client : StsClient}
variable {port expiry : Int} {base : StsState.Base}

theorem fresh (config : StsConfig) : ({ config := config } : StsClient).Sound canon host table :=
  ⟨rfl, nofun, nofun, nofun, nofun, nofun, nofun, trivial⟩

section

variable (sound : client.Sound canon host table)
include sound

theorem read (phase : client.phase = .loading) (settled : Settled canon host table)
    (decoded : decodeSTSPolicy host (table.lookup (stsKey canon host)) = .ok policy) :
    { client with phase := .loaded policy }.Sound canon host table := by
  obtain ⟨counters, lasts⟩ := row_of_decoded decoded
  refine { sound with held := ?_, lasts := ?_, phased := fun enforced _ => lasts enforced }
  · intro pair member
    rcases mem_append.mp member with copied | loaded
    · exact sound.held pair (mem_append_left _ copied)
    · rw [mem_singleton.mp loaded]
      refine ⟨settled, ?_⟩
      rw [counters]
      exact ⟨UInt64.le_refl _, UInt64.le_refl _, fun _ => rfl⟩
  · exact fun known full _ => sound.lasts known full (by rw [phase]; rfl)

theorem settle (now : Int) (phase : client.phase = .loaded policy) :
    { client with sts := client.sts.loadSTS now policy, phase := .ready }.Sound canon host
      table := by
  have current : NotAhead canon host table (policy.revision, policy.policyEpoch) := by
    refine sound.held _ (mem_append_right _ ?_)
    rw [phase]
    exact mem_singleton_self _
  have rowLasts : policy.ok = true → policy.policyEpoch = (generations canon host table).2 →
      RowLasts canon host table policy.duration := by
    have phased := sound.phased
    rw [StsClient.PhaseSound, phase] at phased
    exact phased
  have takes : ∀ state : StsState, state.stsRevisionKnown = true →
      state.stsRevision = policy.revision → state.stsPolicyEpoch = policy.policyEpoch →
      ∀ pair ∈ ({ client with sts := state, phase := .ready } : StsClient).held,
        NotAhead canon host table pair := by
    intro state known revision epoch pair member
    rw [((StsClient.mem_held rfl).mp member).2]
    exact revision ▸ epoch ▸ current
  rcases client.sts.loadSTS_cases now policy with
    ⟨dirty, -, superseded, loads⟩ | ⟨kept, keeps, -, loads⟩
  · rw [loads]
    refine ⟨rfl, takes _ rfl rfl rfl, ?_, sound.session, sound.full, fun _ => ⟨rfl, rfl⟩,
      fun _ _ => rfl, fun _ => rfl⟩
    -- an expiry-only dirty copy is of the epoch it was taken from
    intro _ full _ positive epoch
    have known := sound.expiryOnly dirty full
    have base := sound.base dirty
    have baseKnown : client.sts.stsDirtyBaseEpochKnown = true := by
      rw [base.1, sound.together, known]
    refine sound.lasts known full (by rw [phase]; rfl) positive ?_
    rw [← base.2, ← superseded baseKnown]
    exact epoch
  · have undirtied : kept.stsDirty = false ∧ kept.stsDirtyFull = false := by
      rcases keeps with rfl | ⟨clean, rfl⟩
      · exact ⟨rfl, rfl⟩
      · refine ⟨clean, ?_⟩
        cases full : client.sts.stsDirtyFull with
        | false => rfl
        | true => rw [sound.full full] at clean; cases clean
    have sameSession : kept.stsSession = client.sts.stsSession ∧
        kept.stsLastDur = client.sts.stsLastDur := by
      rcases keeps with rfl | ⟨-, rfl⟩ <;> exact ⟨rfl, rfl⟩
    have noFull : ∀ {flag : Prop}, kept.stsDirtyFull = true → flag := fun full => by
      rw [undirtied.2] at full
      cases full
    have noDirty : ∀ {flag : Prop}, kept.stsDirty = true → flag := fun dirty => by
      rw [undirtied.1] at dirty
      cases dirty
    rw [loads]
    split
    next storeActive =>
      exact ⟨rfl, takes _ rfl rfl rfl,
        fun _ _ _ _ epoch => rowLasts (Bool.and_elim_left storeActive) epoch,
        nofun, noFull, noDirty, noDirty, fun _ => rfl⟩
    · split
      · exact ⟨rfl, takes _ rfl rfl rfl, nofun,
          fun _ => rfl, noFull, noDirty, noDirty, fun _ => rfl⟩
      next session =>
        rw [Bool.not_eq_true', Bool.not_eq_false] at session
        have zero : kept.stsLastDur = 0 := sameSession.2.trans (sound.session session)
        exact ⟨rfl, takes _ rfl rfl rfl, fun _ _ _ positive => absurd zero (ne_of_gt positive),
          fun _ => zero, noFull, noDirty, noDirty, fun _ => rfl⟩

theorem dial (now : Int) (connects : Bool) (phase : client.phase = .ready) :
    { client with
      phase :=
        if connects then
          .connected (effectiveAddr client.config now client.sts).1
            (effectiveAddr client.config now client.sts).2
        else .loading }.Sound canon host table := by
  have phased := sound.phased
  rw [StsClient.PhaseSound, phase] at phased
  have unpublished : client.phase.publishes = false := by
    rw [phase]
    rfl
  cases connects with
  | false => exact sound.rephase rfl unpublished trivial
  | true =>
    refine sound.rephase rfl unpublished fun plaintext => ⟨phased plaintext, fun secure => ?_⟩
    unfold effectiveAddr at secure ⊢
    have plaintext : client.config.tls = false := plaintext
    rw [plaintext, if_neg Bool.false_ne_true] at secure ⊢
    split at secure
    next active =>
      rw [if_pos active]
      exact ⟨_, rfl, of_decide_eq_true (Bool.and_elim_left active)⟩
    · cases secure

theorem recopy (nothing : phase.held = []) (counters : state.base = client.sts.base)
    (dirty : state.stsDirty = client.sts.stsDirty)
    (full : state.stsDirtyFull = client.sts.stsDirtyFull)
    (base : state.stsDirtyBaseEpoch = client.sts.stsDirtyBaseEpoch ∧
      state.stsDirtyBaseEpochKnown = client.sts.stsDirtyBaseEpochKnown)
    (session : state.stsSession = true → state.stsLastDur = 0)
    (lasts : client.sts.stsRevisionKnown = true → client.sts.stsDirtyFull = false →
      phase.publishes = false → 0 < state.stsLastDur →
        client.sts.stsPolicyEpoch = (generations canon host table).2 →
          RowLasts canon host table state.stsLastDur)
    (phased : { client with sts := state, phase := phase }.PhaseSound canon host table) :
    { client with sts := state, phase := phase }.Sound canon host table := by
  simp only [StsState.base, StsState.Base.mk.injEq] at counters
  obtain ⟨revision, known, epoch, epochKnown⟩ := counters
  refine ⟨(epochKnown.trans sound.together).trans known.symm, fun pair member => ?_, ?_, session,
    fun isFull => ?_, fun isDirty => ?_, fun isDirty notFull => ?_, phased⟩
  · obtain ⟨isKnown, rfl⟩ := (StsClient.mem_held nothing).mp member
    have pair := sound.held _ (client.mem_held_of_known (known ▸ isKnown))
    rw [← revision, ← epoch] at pair
    exact pair
  · show state.stsRevisionKnown = true → state.stsDirtyFull = false → _ → _ →
      state.stsPolicyEpoch = _ → _
    rw [known, full, epoch]
    exact lasts
  · exact dirty.trans (sound.full (full ▸ isFull))
  · have before := sound.base (dirty ▸ isDirty)
    exact ⟨base.2.trans (before.1.trans epochKnown.symm), base.1.trans (before.2.trans epoch.symm)⟩
  · exact known.trans (sound.expiryOnly (dirty ▸ isDirty) (full ▸ notFull))

theorem advertised {port : Option Int} (now : Int) (value : Bytes)
    (phase : client.phase = .connected port secure) :
    (client.advertised now value port secure).Sound canon host table := by
  have phased := sound.phased
  rw [StsClient.PhaseSound, phase] at phased
  obtain ⟨seconds, _, bounded, duration⟩ := parseSTS_wellFormed.duration
  unfold StsClient.advertised
  dsimp only
  split
  next isSecure =>
    split
    · exact sound
    next number =>
      have dialed : client.config.tls = false →
          client.sts.stsRevisionKnown = true ∧ 0 < number := by
        intro plaintext
        obtain ⟨known, ports⟩ := phased plaintext
        obtain ⟨_, same, above⟩ := ports isSecure
        exact ⟨known, some.inj same ▸ above⟩
      split
      · exact sound
      · unfold StsState.applySTS
        by_cases zero : (parseSTS value).duration = 0
        · simp only [if_pos zero]
          exact sound.recopy rfl rfl rfl rfl ⟨rfl, rfl⟩ (fun _ => rfl)
            (fun _ _ _ impossible => absurd impossible (lt_irrefl _)) ⟨rfl, dialed⟩
        · simp only [if_neg zero]
          have lasting : Lasting (parseSTS value).duration :=
            ⟨seconds, by omega, bounded, duration⟩
          exact sound.recopy rfl rfl rfl rfl ⟨rfl, rfl⟩ nofun nofun ⟨lasting, rfl, rfl, dialed⟩
  · split
    · exact sound.recopy rfl rfl rfl rfl ⟨rfl, rfl⟩ (fun _ => rfl)
        (fun _ _ _ impossible => absurd impossible (lt_irrefl _)) trivial
    · exact sound

theorem closed {port : Option Int} (now : Int) (phase : client.phase = .connected port secure) :
    (client.closed now secure).Sound canon host table := by
  have unpublished : client.phase.publishes = false := by
    rw [phase]
    rfl
  have lasts : ∀ {after : StsPhase}, client.sts.stsRevisionKnown = true →
      client.sts.stsDirtyFull = false → after.publishes = false → 0 < client.sts.stsLastDur →
        client.sts.stsPolicyEpoch = (generations canon host table).2 →
          RowLasts canon host table client.sts.stsLastDur :=
    fun known full _ => sound.lasts known full unpublished
  rcases client.closed_cases now secure with same | ⟨-, extended⟩ | ⟨-, partly, known, called⟩
  · rw [same]
    exact sound.rephase rfl unpublished trivial
  · rw [extended]
    exact sound.recopy rfl rfl rfl rfl ⟨rfl, rfl⟩ sound.session lasts trivial
  · rw [called]
    refine sound.recopy rfl rfl rfl rfl ⟨rfl, rfl⟩ sound.session lasts ⟨known, rfl, rfl, ?_⟩
    cases full : client.sts.stsDirtyFull with
    | false => rfl
    | true => exact absurd ⟨sound.full full, full⟩ partly

theorem wrote (next : StsTable) (settled : Settled canon host next)
    (written : next.lookup (stsKey canon host) = some (some record))
    (sts : state = (client.sts.learn record.revision record.policyEpoch).clean)
    (lasts : 0 < client.sts.stsLastDur → record.decodedDuration = client.sts.stsLastDur)
    (above : client.config.tls = false → 0 < port) :
    { client with sts := state, phase := .connected (some port) true }.Sound canon host
      next := by
  have counters : generations canon host next = (record.revision, record.policyEpoch) := by
    rw [generations, written]
  subst sts
  refine ⟨rfl, fun pair member => ?_, fun _ _ _ positive _ => ⟨record, written, lasts positive⟩,
    sound.session, by rintro ⟨⟩, by rintro ⟨⟩, by rintro ⟨⟩,
    fun plaintext => ⟨rfl, fun _ => ⟨port, rfl, above plaintext⟩⟩⟩
  obtain ⟨-, rfl⟩ := (StsClient.mem_held rfl).mp member
  refine ⟨settled, ?_⟩
  rw [counters]
  exact ⟨UInt64.le_refl _, UInt64.le_refl _, fun _ => rfl⟩

theorem publishFailed (phase : client.phase = .publishing port expiry duration base) :
    { client with
      sts := client.sts.published base none
      phase := .connected (some port) true }.Sound canon host table := by
  have phased := sound.phased
  rw [StsClient.PhaseSound, phase] at phased
  obtain ⟨-, -, rfl, dialed⟩ := phased
  refine ⟨sound.together, fun pair member => ?_, nofun,
    sound.session, fun _ => rfl, fun _ => ⟨rfl, rfl⟩, nofun,
    fun plaintext => ⟨(dialed plaintext).1, fun _ => ⟨port, rfl, (dialed plaintext).2⟩⟩⟩
  obtain ⟨known, rfl⟩ := (StsClient.mem_held rfl).mp member
  exact sound.held _ (client.mem_held_of_known known)

theorem clearFailed (phase : client.phase = .clearing port) :
    { client with
      sts := client.sts.cleared none
      phase := .connected (some port) true }.Sound canon host table := by
  have phased := sound.phased
  rw [StsClient.PhaseSound, phase] at phased
  obtain ⟨zero, dialed⟩ := phased
  refine ⟨sound.together, fun pair member => ?_,
    fun _ _ _ positive => absurd zero (ne_of_gt positive),
    sound.session, nofun, nofun,
    nofun,
    fun plaintext => ⟨(dialed plaintext).1, fun _ => ⟨port, rfl, (dialed plaintext).2⟩⟩⟩
  obtain ⟨known, rfl⟩ := (StsClient.mem_held rfl).mp member
  exact sound.held _ (client.mem_held_of_known known)

theorem rescheduled {revision written : UInt64} {next : StsTable}
    (phase : client.phase = .rescheduling revision expiry base)
    (settled : Settled canon host next)
    (current : (generations canon host table).1 = revision)
    (counters : generations canon host next = (written, (generations canon host table).2))
    (keeps : ∀ duration, RowLasts canon host table duration →
      RowLasts canon host next duration) :
    { client with
      sts := client.sts.rescheduled base (some written), phase := .loading }.Sound canon host
        next := by
  have phased := sound.phased
  rw [StsClient.PhaseSound, phase] at phased
  obtain ⟨known, rfl, -, partly⟩ := phased
  have epoch : client.sts.stsPolicyEpoch = (generations canon host table).2 :=
    (sound.held _ (client.mem_held_of_known known)).2.2.2 current.symm
  refine ⟨sound.together.trans known, fun pair member => ?_, fun _ _ _ positive _ => ?_,
    sound.session, nofun, nofun,
    nofun, trivial⟩
  · obtain ⟨-, rfl⟩ := (StsClient.mem_held rfl).mp member
    refine ⟨settled, ?_⟩
    rw [counters, ← epoch]
    exact ⟨UInt64.le_refl _, UInt64.le_refl _, fun _ => rfl⟩
  · exact keeps _ (sound.lasts known partly (by rw [phase]; rfl) positive epoch)

theorem notRescheduled {revision : UInt64}
    (phase : client.phase = .rescheduling revision expiry base) :
    { client with
      sts := client.sts.rescheduled base none, phase := .loading }.Sound canon host table := by
  have phased := sound.phased
  rw [StsClient.PhaseSound, phase] at phased
  obtain ⟨known, -, rfl, partly⟩ := phased
  refine ⟨sound.together, fun pair member => ?_, fun _ _ _ positive epoch => ?_, sound.session,
    nofun, fun _ => ⟨rfl, rfl⟩, fun _ _ => known, trivial⟩
  · obtain ⟨-, rfl⟩ := (StsClient.mem_held rfl).mp member
    exact sound.held _ (client.mem_held_of_known known)
  · exact sound.lasts known partly (by rw [phase]; rfl) positive epoch

end

end StsClient.Sound

def StsSystem.Sound (canon : Bytes → Bytes) (host : Bytes) (system : StsSystem) : Prop :=
  ∀ index, (system.managers index).Sound canon host system.table

namespace StsSystem

variable {system next : StsSystem} {event : StsEvent} {fault : StsStatement → Bool}
  {entropy : Option (UInt64 × UInt64)}
variable {index : Nat} {revision : UInt64}

theorem update_self (system : StsSystem) (index : Nat) (client : StsClient) (table : StsTable) :
    (system.update index client table).managers index = client := by
  show Function.update system.managers index client index = client
  rw [Function.update_self]

theorem update_other (different : other ≠ index) (client : StsClient) (table : StsTable) :
    (system.update index client table).managers other = system.managers other := by
  show Function.update system.managers index client other = _
  rw [Function.update_of_ne different]

theorem Sound.update (own : client.Sound canon host table)
    (others : ∀ other, (system.managers other).Sound canon host table) :
    (system.update index client table).Sound canon host := by
  intro other
  by_cases same : other = index
  · rw [same, update_self]
    exact own
  · rw [update_other same]
    exact others other

theorem Sound.behind (sound : system.Sound canon host)
    (fresh : system.DrawsFresh canon host (.publish index fault entropy))
    (commits : system.commits canon host (.publish index fault entropy) = true)
    (advances : Settled canon host system.table →
      Advances canon ⟨system.clock, fault, entropy⟩ host system.table revision epoch)
    (member : pair ∈ (system.managers other).held) :
    pair.1 < revision ∧ pair.2 < epoch := by
  have behind := (sound other).held pair member
  rcases advances behind.1 with ⟨revised, renewed⟩ | ⟨repairable, draws, drawn, revised, renewed⟩
  · exact ⟨UInt64.lt_of_le_of_lt behind.2.1 revised, UInt64.lt_of_le_of_lt behind.2.2.1 renewed⟩
  · have drawn : entropy = some draws := drawn
    subst drawn
    have above := fresh commits repairable other pair member
    exact ⟨UInt64.lt_of_le_of_lt above.1 revised, UInt64.lt_of_le_of_lt above.2 renewed⟩

theorem Sound.outdated (sound : system.Sound canon host)
    (fresh : system.DrawsFresh canon host (.publish index fault entropy))
    (commits : system.commits canon host (.publish index fault entropy) = true)
    (settled : Settled canon host table)
    (counters : generations canon host table = (revision, epoch))
    (advances : Settled canon host system.table →
      Advances canon ⟨system.clock, fault, entropy⟩ host system.table revision epoch)
    (other : Nat) : (system.managers other).Sound canon host table := by
  refine (sound other).outdated fun pair member => ⟨settled, ?_⟩
  rw [counters]
  exact sound.behind fresh commits advances member

theorem Moves.sound (moves : system.Moves canon host event next)
    (fresh : system.DrawsFresh canon host event) (sound : system.Sound canon host) : next.Sound canon host := by
  cases moves with
  | tick => exact sound
  | restart _ config => exact Sound.update (StsClient.Sound.fresh config) sound
  | @read index _ _ _ phase settled decoded same =>
    exact Sound.update (((sound index).unchanged same).read phase settled decoded)
      fun other => (sound other).unchanged same
  | @readFailed index _ table phase same =>
    refine Sound.update (((sound index).unchanged same).rephase ?_ (by rw [phase]; rfl) ?_)
      fun other => (sound other).unchanged same
    · split <;> rfl
    · unfold StsClient.PhaseSound
      cases tls : (system.managers index).config.tls with
      | false => trivial
      | true => exact nofun
  | @settle index _ phase => exact Sound.update ((sound index).settle _ phase) sound
  | @dial index connects phase => exact Sound.update ((sound index).dial _ connects phase) sound
  | @advertise index value _ _ phase =>
    exact Sound.update ((sound index).advertised _ value phase) sound
  | @published index _ _ port _ duration _ _ _ _ phase commits settled written valid advances =>
    have phased := (sound index).phased
    rw [StsClient.PhaseSound, phase] at phased
    obtain ⟨lasting, same, -⟩ := phased
    refine Sound.update ((sound index).wrote _ settled written rfl (fun _ => ?_) fun _ => valid.1)
      (sound.outdated fresh commits settled (by rw [generations, written]) advances)
    rw [same]
    exact decodedDuration_of_lasting lasting rfl
  | @publishFailed index _ _ _ _ _ _ _ phase _ same =>
    exact Sound.update (((sound index).unchanged same).publishFailed phase)
      fun other => (sound other).unchanged same
  | @cleared index _ _ port _ _ _ phase commits settled written advances =>
    have phased := (sound index).phased
    rw [StsClient.PhaseSound, phase] at phased
    obtain ⟨zero, dialed⟩ := phased
    exact Sound.update ((sound index).wrote _ settled written rfl
      (fun positive => absurd zero (ne_of_gt positive)) fun plaintext => (dialed plaintext).2)
      (sound.outdated fresh commits settled (by rw [generations, written]) advances)
  | @clearFailed index _ _ _ _ phase _ same =>
    exact Sound.update (((sound index).unchanged same).clearFailed phase)
      fun other => (sound other).unchanged same
  | @close index _ _ phase => exact Sound.update ((sound index).closed _ phase) sound
  | @rescheduled index _ revision written expiry _ current table phase settled held expected _
      grows row =>
    have before : generations canon host system.table = (revision, current.policyEpoch) := by
      rw [generations, held, ← expected]
    have counters : generations canon host table = (written, current.policyEpoch) := by
      rw [generations, row]
    have keeps : ∀ duration, RowLasts canon host system.table duration →
        RowLasts canon host table duration := by
      rintro duration ⟨_, found, lasts⟩
      rw [held] at found
      obtain rfl := some.inj (some.inj found)
      exact ⟨_, row, lasts⟩
    refine Sound.update ((sound index).rescheduled phase settled (by rw [before])
      (by rw [before, counters]) keeps) fun other => ?_
    exact (sound other).extended settled (by rw [before, counters]; exact grows)
      (by rw [before, counters]) keeps
  | @notRescheduled index _ _ _ _ phase =>
    exact Sound.update ((sound index).notRescheduled phase) sound

theorem Sound.rescheduling (sound : system.Sound canon host) {expiry : Int} {base : StsState.Base}
    (phase : (system.managers index).phase = .rescheduling revision expiry base) :
    ∃ epoch, (revision, epoch) ∈ (system.managers index).held ∧
      (system.managers index).sts.stsDirtyFull = false := by
  have phased := (sound index).phased
  rw [StsClient.PhaseSound, phase] at phased
  obtain ⟨known, rfl, -, partly⟩ := phased
  exact ⟨_, StsClient.mem_held_of_known known, partly⟩

/-- What a fresh event does, and that every manager keeps its soundness. -/
theorem Sound.moves (fixed : canon host = host) (sound : system.Sound canon host)
    (fresh : system.DrawsFresh canon host event)
    (stepped : system.step canon host event = some next) :
    system.Moves canon host event next ∧ next.Sound canon host := by
  have moves := moves_of_step fixed (fun index revision expiry base phase => by
    obtain ⟨_, member, -⟩ := sound.rescheduling phase
    exact ((sound index).held _ member).1) stepped
  exact ⟨moves, moves.sound fresh sound⟩

theorem Initial.sound (initial : system.Initial) : system.Sound canon host := by
  intro index
  obtain ⟨sts, phase⟩ := initial index
  have started : system.managers index = { config := (system.managers index).config } := by
    rw [← sts, ← phase]
  rw [started]
  exact StsClient.Sound.fresh _

theorem reached_sound (fixed : canon host = host) {start : StsSystem} (initial : start.Initial)
    (reached : Machine.Reaches (step canon host) (DrawsFresh canon host) start system) :
    system.Sound canon host :=
  reached.invariant initial.sound fun _ _ _ sound fresh stepped =>
    (sound.moves fixed fresh stepped).2

end StsSystem

end Ircthing.Irc
