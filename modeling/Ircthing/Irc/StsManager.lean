/-
This file models how connection managers of one host keep its strict transport security policy. A
manager is cut where it calls the store; failures, draws and what a server sends are part of the
event.
-/

import Ircthing.Irc.Sts
import Ircthing.Library.Machine
import Ircthing.Store.StsHeld

namespace Ircthing.Irc

open Library Store Effect

/-! ### The copy of a manager -/

/-- The fields of `Manager` that `stsMu` guards. The zero time of `stsUntil` is `none`. -/
structure StsState where
  stsPort : Int := 0
  stsUntil : Option Int := none
  stsLastDur : Int := 0
  stsRevision : UInt64 := 0
  stsRevisionKnown : Bool := false
  stsPolicyEpoch : UInt64 := 0
  stsPolicyEpochKnown : Bool := false
  stsSession : Bool := false
  stsDirty : Bool := false
  stsDirtyFull : Bool := false
  stsDirtyBaseEpoch : UInt64 := 0
  stsDirtyBaseEpochKnown : Bool := false
deriving DecidableEq

namespace StsState

variable (now : Int) (state : StsState)

def active : Bool :=
  0 < state.stsPort && state.stsUntil.all fun expiry => now < expiry

def learn (revision epoch : UInt64) (state : StsState) : StsState :=
  { state with
    stsRevision := revision, stsRevisionKnown := true
    stsPolicyEpoch := epoch, stsPolicyEpochKnown := true }

def clean : StsState :=
  { state with stsDirty := false, stsDirtyFull := false, stsDirtyBaseEpochKnown := false }

def resolveSTSDirtyLocked (policy : StsPolicy) (storeActive localActive : Bool)
    (state : StsState) : Bool × StsState :=
  let newerShared :=
    state.stsDirtyBaseEpochKnown && policy.policyEpoch != state.stsDirtyBaseEpoch
  if !newerShared && localActive &&
      (state.stsDirtyFull || !storeActive ||
        state.stsUntil.any fun expiry => policy.expiry < expiry) then
    (true, { state.learn policy.revision policy.policyEpoch with
      stsDirtyBaseEpoch := policy.policyEpoch, stsDirtyBaseEpochKnown := true })
  else (false, state.clean)

def loadSTS (policy : StsPolicy) (state : StsState) : StsState :=
  let storeActive := policy.ok && now < policy.expiry
  let (retained, state) :=
    if state.stsDirty then state.resolveSTSDirtyLocked policy storeActive (state.active now)
    else (false, state)
  if retained then state
  else
    let state := state.learn policy.revision policy.policyEpoch
    if storeActive then
      { state with
        stsPort := policy.port, stsUntil := some policy.expiry
        stsLastDur := policy.duration, stsSession := false }
    else if !state.stsSession then
      { state with stsPort := 0, stsUntil := none, stsLastDur := 0 }
    else state

/-- The upgrade an insecure connection advertises, `errSTSUpgrade` in `Run`. -/
def upgrade (port : Int) (state : StsState) : StsState :=
  { state with stsPort := port, stsUntil := none, stsLastDur := 0, stsSession := true }

def applySTS (now port duration : Int) (state : StsState) : StsState :=
  if duration = 0 then
    { state with stsPort := 0, stsUntil := none, stsLastDur := 0, stsSession := false }
  else
    { state with
      stsPort := port, stsUntil := some (now + duration), stsLastDur := duration
      stsSession := false }

/-- `applySTS` after `ClearSTSPolicy`, with the counters if it succeeded. -/
def cleared (outcome : Option (UInt64 × UInt64)) (state : StsState) : StsState :=
  match outcome with
  | some (revision, epoch) => (state.learn revision epoch).clean
  | none => state.clean

/-- What `applySTS` knows of the store before it calls it. -/
structure Base where
  revision : UInt64
  revisionKnown : Bool
  epoch : UInt64
  epochKnown : Bool
deriving DecidableEq

def base : Base :=
  { revision := state.stsRevision, revisionKnown := state.stsRevisionKnown
    epoch := state.stsPolicyEpoch, epochKnown := state.stsPolicyEpochKnown }

/-- `applySTS` after `SetSTSPolicy`, with the counters if it succeeded. -/
def published (base : Base) (outcome : Option (UInt64 × UInt64)) (state : StsState) : StsState :=
  match outcome with
  | some (revision, epoch) => (state.learn revision epoch).clean
  | none =>
    { state with
      stsRevision := base.revision, stsRevisionKnown := base.revisionKnown
      stsPolicyEpoch := base.epoch, stsPolicyEpochKnown := base.epochKnown
      stsDirty := true, stsDirtyFull := true
      stsDirtyBaseEpoch := base.epoch, stsDirtyBaseEpochKnown := base.epochKnown }

/-- `rescheduleSTS` before it calls the store: the copy, and the revision and expiry of the call
unless there is none to make. -/
def rescheduleSTS : StsState × Option (UInt64 × Int) :=
  if state.stsLastDur ≤ 0 ∨ state.stsPort = 0 then (state, none)
  else
    let expiry := now + state.stsLastDur
    let dirtyFull := state.stsDirty && state.stsDirtyFull
    ({ state with stsUntil := some expiry },
      if dirtyFull || !state.stsRevisionKnown then none else some (state.stsRevision, expiry))

/-- `rescheduleSTS` after `RescheduleSTSPolicy`, with the revision if the expiry was written. -/
def rescheduled (base : Base) (outcome : Option UInt64) (state : StsState) : StsState :=
  match outcome with
  | some revision => { state with stsRevision := revision, stsRevisionKnown := true }.clean
  | none =>
    { state with
      stsDirty := true, stsDirtyFull := false
      stsDirtyBaseEpoch := base.epoch, stsDirtyBaseEpochKnown := base.epochKnown }

end StsState

/-- The part of `Config` that decides how to dial: whether TLS is configured, and the port, `none`
if it is not a number. -/
structure StsConfig where
  tls : Bool
  port : Option Int
deriving DecidableEq

def effectiveAddr (config : StsConfig) (now : Int) (state : StsState) : Option Int × Bool :=
  if config.tls then (config.port, true)
  else if state.active now then (some state.stsPort, true)
  else (config.port, false)

/-! ### Managers and the store -/

inductive StsPhase
  /-- Before `STSPolicy`. -/
  | loading
  /-- `STSPolicy` has returned. -/
  | loaded (policy : StsPolicy)
  /-- Before `effectiveAddr` and the dial. -/
  | ready
  /-- On a connection. -/
  | connected (port : Option Int) (secure : Bool)
  /-- On a secure connection, before `SetSTSPolicy`. -/
  | publishing (port expiry duration : Int) (base : StsState.Base)
  /-- On a secure connection, before `ClearSTSPolicy`. -/
  | clearing (port : Int)
  /-- After a secure connection, before `RescheduleSTSPolicy`. -/
  | rescheduling (revision : UInt64) (expiry : Int) (base : StsState.Base)
deriving DecidableEq

structure StsClient where
  config : StsConfig
  sts : StsState := {}
  phase : StsPhase := .loading
deriving DecidableEq

structure StsSystem where
  clock : Int
  table : StsTable
  managers : Nat → StsClient

namespace StsSystem

def update (system : StsSystem) (index : Nat) (client : StsClient) (table : StsTable) : StsSystem :=
  { system with table := table, managers := Function.update system.managers index client }

end StsSystem

inductive StsEvent
  | tick (elapsed : Nat)
  | restart (index : Nat) (config : StsConfig)
  | read (index : Nat) (fault : StsStatement → Bool)
  | settle (index : Nat)
  | dial (index : Nat) (connects : Bool)
  | advertise (index : Nat) (value : Bytes)
  | publish (index : Nat) (fault : StsStatement → Bool) (entropy : Option (UInt64 × UInt64))
  | close (index : Nat)
  | reschedule (index : Nat) (fault : StsStatement → Bool)

def outcomeOf {Value : Type} : Except StsError Value → Option Value
  | .ok value => some value
  | .error _ => none

def StsClient.advertised (now : Int) (value : Bytes) (port : Option Int) (secure : Bool)
    (client : StsClient) : StsClient :=
  let parsed := parseSTS value
  if secure then
    match port with
    | none => client
    | some port =>
      if !parsed.hasDuration then client
      else
        { client with
          sts := client.sts.applySTS now port parsed.duration
          phase :=
            if parsed.duration = 0 then .clearing port
            else .publishing port (now + parsed.duration) parsed.duration client.sts.base }
  else if 0 < parsed.port then
    { client with sts := client.sts.upgrade parsed.port, phase := .loading }
  else client

def StsClient.closed (now : Int) (secure : Bool) (client : StsClient) : StsClient :=
  if secure then
    match client.sts.rescheduleSTS now with
    | (state, some (revision, expiry)) =>
      { client with sts := state, phase := .rescheduling revision expiry client.sts.base }
    | (state, none) => { client with sts := state, phase := .loading }
  else { client with phase := .loading }

variable (canon : Bytes → Bytes) (host : Bytes) (system : StsSystem)

/-- The system after an event, `none` where the event cannot happen. -/
def StsSystem.step : StsEvent → Option StsSystem
  | .tick elapsed => some { system with clock := system.clock + elapsed }
  | .restart index config => some (system.update index { config := config } system.table)
  | .read index fault =>
    let client := system.managers index
    match client.phase with
    | .loading =>
      match exec (stsPolicy canon ⟨system.clock, fault, none⟩ host) system.table with
      | (.ok policy, table) =>
        some (system.update index { client with phase := .loaded policy } table)
      | (.error _, table) =>
        -- a TLS configuration goes on, a plaintext one tries again
        some (system.update index
          { client with phase := if client.config.tls then .ready else .loading } table)
    | _ => none
  | .settle index =>
    let client := system.managers index
    match client.phase with
    | .loaded policy =>
      some (system.update index
        { client with sts := client.sts.loadSTS system.clock policy, phase := .ready }
        system.table)
    | _ => none
  | .dial index connects =>
    let client := system.managers index
    match client.phase with
    | .ready =>
      let (port, secure) := effectiveAddr client.config system.clock client.sts
      some (system.update index
        { client with phase := if connects then .connected port secure else .loading }
        system.table)
    | _ => none
  | .advertise index value =>
    let client := system.managers index
    match client.phase with
    | .connected port secure =>
      some (system.update index (client.advertised system.clock value port secure) system.table)
    | _ => none
  | .publish index fault entropy =>
    let client := system.managers index
    match client.phase with
    | .publishing port expiry duration base =>
      let (outcome, table) := exec
        (setSTSPolicy canon ⟨system.clock, fault, entropy⟩ host port expiry duration)
        system.table
      some (system.update index
        { client with
          sts := client.sts.published base (outcomeOf outcome)
          phase := .connected (some port) true } table)
    | .clearing port =>
      let (outcome, table) := exec
        (clearSTSPolicy canon ⟨system.clock, fault, entropy⟩ host) system.table
      some (system.update index
        { client with
          sts := client.sts.cleared (outcomeOf outcome)
          phase := .connected (some port) true } table)
    | _ => none
  | .close index =>
    let client := system.managers index
    match client.phase with
    | .connected _ secure =>
      some (system.update index (client.closed system.clock secure) system.table)
    | _ => none
  | .reschedule index fault =>
    let client := system.managers index
    match client.phase with
    | .rescheduling revision expiry base =>
      let (outcome, table) := exec
        (rescheduleSTSPolicy canon ⟨system.clock, fault, none⟩ host revision expiry)
        system.table
      let written :=
        match outcome with
        | .ok (revision, true) => some revision
        | _ => none
      some (system.update index
        { client with sts := client.sts.rescheduled base written, phase := .loading } table)
    | _ => none

def StsState.held (state : StsState) : List (UInt64 × UInt64) :=
  if state.stsRevisionKnown then [(state.stsRevision, state.stsPolicyEpoch)] else []

def StsPhase.held : StsPhase → List (UInt64 × UInt64)
  | .loaded policy => [(policy.revision, policy.policyEpoch)]
  | _ => []

def StsClient.held (client : StsClient) : List (UInt64 × UInt64) :=
  client.sts.held ++ client.phase.held

/-- Whether the event is a publish or a clear that the store commits. -/
def StsSystem.commits : StsEvent → Bool
  | .publish index fault entropy =>
    match (system.managers index).phase with
    | .publishing port expiry duration _ =>
      (exec (setSTSPolicy canon ⟨system.clock, fault, entropy⟩ host port expiry
        duration) system.table).1.isOk
    | .clearing _ =>
      (exec (clearSTSPolicy canon ⟨system.clock, fault, entropy⟩ host) system.table).1.isOk
    | _ => false
  | _ => false

/-- The counters that a repair draws are above every counter a manager still holds. Counters start
at zero and fresh ones are drawn from `2 ^ 62` on; what is left out is a repair while a manager
still holds a counter above the draw, such as the one that was exhausted. -/
def StsSystem.DrawsFresh : StsEvent → Prop
  | .publish index fault (some draws) =>
      system.commits canon host (.publish index fault (some draws)) = true →
      Repairable canon host system.table → ∀ index, ∀ pair ∈ (system.managers index).held,
        pair.1 ≤ freshSTSGeneration draws.1 ∧ pair.2 ≤ freshSTSGeneration draws.2
  | _ => True

def StsSystem.Initial : Prop :=
  ∀ index, (system.managers index).sts = {} ∧ (system.managers index).phase = .loading

end Ircthing.Irc
