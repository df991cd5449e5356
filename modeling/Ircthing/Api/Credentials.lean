/-
This file models the requests that create and revoke credentials, as threads that interleave: login,
logout, the registration of a push subscription and the password change. Each is cut where it takes
or releases a lock, touches an atomic, or enters a critical section or a transaction.
-/

import Ircthing.Api.Sessions
import Mathlib.Logic.Function.Basic

namespace Ircthing.Api

/-! ### The shared state -/

/-- A value of the atomic `passwordHash`: the bcrypt text, and which store of the atomic wrote
it. -/
structure PasswordHash where
  version : Nat
  text : Bytes
deriving DecidableEq

/-- A row of `push_subscriptions`, with the tokens of the requests that wrote it. -/
structure Subscription where
  endpoint : Bytes
  p256dh : Bytes
  auth : Bytes
  writers : List Bytes
deriving DecidableEq

structure Shared where
  credGen : Nat
  hash : PasswordHash
  registry : Registry
  /-- The row `password_hash` of the settings. -/
  storedHash : Option Bytes
  subscriptions : List Subscription
  passwordMu : Option Nat
  pushMutationMu : Option Nat
  /-- Every token ever issued, with the version of the hash its login verified. -/
  minted : List (Bytes × Nat)

variable (s : Shared)

def Shared.issued : List Bytes := s.minted.map Prod.fst

def Shared.authed (token : Option Bytes) (now : Int) : Shared × Bool :=
  match token with
  | none => (s, false)
  | some token =>
    let ((registry, _), valid) := s.registry.tokenValid token now
    ({ s with registry := registry }, valid)

def maxPushSubscriptions : Nat := 16

def Shared.hasRoom (endpoint : Bytes) : Prop :=
  (s.subscriptions.filter (·.endpoint ≠ endpoint)).length < maxPushSubscriptions

instance (s : Shared) (endpoint : Bytes) : Decidable (s.hasRoom endpoint) :=
  inferInstanceAs (Decidable (_ < _))

/-- `UpsertPushSubscription`, when there is room. -/
def Shared.upsert (endpoint p256dh auth token : Bytes) : Shared :=
  { s with
    subscriptions :=
      if s.subscriptions.any (·.endpoint = endpoint) then
        s.subscriptions.map fun row =>
          if row.endpoint = endpoint then
            { row with p256dh := p256dh, auth := auth, writers := token :: row.writers }
          else row
      else s.subscriptions ++ [⟨endpoint, p256dh, auth, [token]⟩] }

/-! ### The threads -/

inductive Thread where
  | idle
  | loginSnapshot (username password : Bytes) (gen : Nat)
  | loginComparing (username password : Bytes) (gen : Nat) (hash : PasswordHash)
  | loginVerified (gen version : Nat)
  | loginRechecked (gen version : Nat)
  | logoutLocked (token : Option Bytes) (endpoint : Bytes)
  | logoutChecked (token : Option Bytes) (endpoint : Bytes) (deletePush : Bool)
  | logoutRevoked (endpoint : Bytes) (deletePush : Bool)
  | subscribeLocked (token : Option Bytes) (endpoint p256dh auth : Bytes)
  | subscribeAuthed (token endpoint p256dh auth : Bytes)
  /-- A logout or a registration that is about to release the barrier. -/
  | pushEnding
  | changeLocked (token : Option Bytes) (current new : Bytes)
  | changeAuthed (current new : Bytes)
  | changeComparing (current new : Bytes) (hash : PasswordHash)
  | changeVerified (new : Bytes)
  | changeHashed (newHash : Bytes)
  | changeBarred (newHash : Bytes)
  | changeWiped (newHash : Bytes)
  /-- The new hash is installed; `old` is the version it replaced. -/
  | changeInstalled (old : Nat)
  /-- A password change that is about to release the barrier. -/
  | changeEnding
  | changeUnlocking
deriving DecidableEq

structure Deployment where
  username : Bytes
  /-- `bcrypt.CompareHashAndPassword` of a hash and a password succeeds. -/
  compares : Bytes → Bytes → Bool

/-- One step of the thread `t`. Where a limiter, the random source or the store may refuse or
fail, there is a step for it. -/
inductive Act (d : Deployment) (t : Nat) : Shared → Thread → Shared → Thread → Prop
  -- requireAuth, on any other request
  | requireAuth (s : Shared) (token : Option Bytes) (now : Int) :
    Act d t s .idle (s.authed token now).1 .idle
  -- handleLogin
  | loginBegin (s : Shared) (username password : Bytes) :
    Act d t s .idle s (.loginSnapshot username password s.credGen)
  | loginBusy (s : Shared) (username password : Bytes) (gen : Nat) :
    Act d t s (.loginSnapshot username password gen) s .idle
  | loginLoad (s : Shared) (username password : Bytes) (gen : Nat) :
    Act d t s (.loginSnapshot username password gen)
      s (.loginComparing username password gen s.hash)
  | loginMatch (s : Shared) (username password : Bytes) (gen : Nat) (hash : PasswordHash)
      (accepted : username = d.username ∧ d.compares hash.text password = true) :
    Act d t s (.loginComparing username password gen hash) s (.loginVerified gen hash.version)
  | loginMismatch (s : Shared) (username password : Bytes) (gen : Nat) (hash : PasswordHash)
      (refused : ¬ (username = d.username ∧ d.compares hash.text password = true)) :
    Act d t s (.loginComparing username password gen hash) s .idle
  | loginRecheck (s : Shared) (gen version : Nat) (current : s.credGen = gen) :
    Act d t s (.loginVerified gen version) s (.loginRechecked gen version)
  | loginStale (s : Shared) (gen version : Nat) (rotated : s.credGen ≠ gen) :
    Act d t s (.loginVerified gen version) s .idle
  | issueToken (s : Shared) (gen version : Nat) (token : Bytes) (now ttl : Int)
      (current : s.credGen = gen) (fresh : token ∉ s.issued) :
    Act d t s (.loginRechecked gen version)
      { s with
        registry := (s.registry.issue token now ttl).1
        minted := (token, version) :: s.minted } .idle
  | issueRotated (s : Shared) (gen version : Nat) (rotated : s.credGen ≠ gen) :
    Act d t s (.loginRechecked gen version) s .idle
  | issueFailed (s : Shared) (gen version : Nat) : Act d t s (.loginRechecked gen version) s .idle
  -- handleLogout
  | logoutLock (s : Shared) (token : Option Bytes) (endpoint : Bytes)
      (free : s.pushMutationMu = none) :
    Act d t s .idle { s with pushMutationMu := some t } (.logoutLocked token endpoint)
  | logoutNoEndpoint (s : Shared) (token : Option Bytes) :
    Act d t s (.logoutLocked token []) s (.logoutChecked token [] false)
  | logoutCheck (s : Shared) (token : Option Bytes) (endpoint : Bytes) (now : Int)
      (given : endpoint ≠ []) :
    Act d t s (.logoutLocked token endpoint) (s.authed token now).1
      (.logoutChecked token endpoint (s.authed token now).2)
  | logoutRevoke (s : Shared) (token endpoint : Bytes) (deletePush : Bool) :
    Act d t s (.logoutChecked (some token) endpoint deletePush)
      { s with registry := (s.registry.deleteTokenLocked token).1 }
      (.logoutRevoked endpoint deletePush)
  | logoutNoCookie (s : Shared) (endpoint : Bytes) (deletePush : Bool) :
    Act d t s (.logoutChecked none endpoint deletePush) s (.logoutRevoked endpoint deletePush)
  | logoutUnsubscribe (s : Shared) (endpoint : Bytes) :
    Act d t s (.logoutRevoked endpoint true)
      { s with subscriptions := s.subscriptions.filter (·.endpoint ≠ endpoint) } .pushEnding
  | logoutKeep (s : Shared) (endpoint : Bytes) (deletePush : Bool) :
    Act d t s (.logoutRevoked endpoint deletePush) s .pushEnding
  -- handlePushSubscribe
  | subscribeLock (s : Shared) (token : Option Bytes) (endpoint p256dh auth : Bytes)
      (free : s.pushMutationMu = none) :
    Act d t s .idle { s with pushMutationMu := some t }
      (.subscribeLocked token endpoint p256dh auth)
  | subscribeAuth (s : Shared) (token endpoint p256dh auth : Bytes) (now : Int)
      (valid : (s.authed (some token) now).2 = true) :
    Act d t s (.subscribeLocked (some token) endpoint p256dh auth) (s.authed (some token) now).1
      (.subscribeAuthed token endpoint p256dh auth)
  | subscribeDenied (s : Shared) (token : Option Bytes) (endpoint p256dh auth : Bytes) (now : Int)
      (invalid : (s.authed token now).2 = false) :
    Act d t s (.subscribeLocked token endpoint p256dh auth) (s.authed token now).1 .pushEnding
  | subscribeStore (s : Shared) (token endpoint p256dh auth : Bytes) (room : s.hasRoom endpoint) :
    Act d t s (.subscribeAuthed token endpoint p256dh auth)
      (s.upsert endpoint p256dh auth token) .pushEnding
  | subscribeRefused (s : Shared) (token endpoint p256dh auth : Bytes) :
    Act d t s (.subscribeAuthed token endpoint p256dh auth) s .pushEnding
  | pushUnlock (s : Shared) : Act d t s .pushEnding { s with pushMutationMu := none } .idle
  -- handleChangePassword
  | changeLock (s : Shared) (token : Option Bytes) (current new : Bytes)
      (free : s.passwordMu = none) :
    Act d t s .idle { s with passwordMu := some t } (.changeLocked token current new)
  | changeLimited (s : Shared) (token : Option Bytes) (current new : Bytes) :
    Act d t s (.changeLocked token current new) s .changeUnlocking
  | changeAuth (s : Shared) (token : Option Bytes) (current new : Bytes) (now : Int)
      (valid : (s.authed token now).2 = true) :
    Act d t s (.changeLocked token current new) (s.authed token now).1 (.changeAuthed current new)
  | changeDenied (s : Shared) (token : Option Bytes) (current new : Bytes) (now : Int)
      (invalid : (s.authed token now).2 = false) :
    Act d t s (.changeLocked token current new) (s.authed token now).1 .changeUnlocking
  | changeBusy (s : Shared) (current new : Bytes) :
    Act d t s (.changeAuthed current new) s .changeUnlocking
  | changeLoad (s : Shared) (current new : Bytes) :
    Act d t s (.changeAuthed current new) s (.changeComparing current new s.hash)
  | changeMatch (s : Shared) (current new : Bytes) (hash : PasswordHash)
      (accepted : d.compares hash.text current = true) :
    Act d t s (.changeComparing current new hash) s (.changeVerified new)
  | changeMismatch (s : Shared) (current new : Bytes) (hash : PasswordHash)
      (refused : d.compares hash.text current = false) :
    Act d t s (.changeComparing current new hash) s .changeUnlocking
  | changeHash (s : Shared) (new newHash : Bytes) (length : 8 ≤ new.length ∧ new.length ≤ 72) :
    Act d t s (.changeVerified new) s (.changeHashed newHash)
  | changeRefused (s : Shared) (new : Bytes) : Act d t s (.changeVerified new) s .changeUnlocking
  | changeBar (s : Shared) (newHash : Bytes) (free : s.pushMutationMu = none) :
    Act d t s (.changeHashed newHash) { s with pushMutationMu := some t } (.changeBarred newHash)
  | changeWipe (s : Shared) (newHash : Bytes) :
    Act d t s (.changeBarred newHash) { s with storedHash := some newHash, subscriptions := [] }
      (.changeWiped newHash)
  | changeStoreFailed (s : Shared) (newHash : Bytes) :
    Act d t s (.changeBarred newHash) s .changeEnding
  | changeInstall (s : Shared) (newHash : Bytes) :
    Act d t s (.changeWiped newHash) { s with hash := ⟨s.hash.version + 1, newHash⟩ }
      (.changeInstalled s.hash.version)
  | changeRevoke (s : Shared) (old : Nat) :
    Act d t s (.changeInstalled old)
      { s with credGen := s.credGen + 1, registry := s.registry.revokeAll.1 } .changeEnding
  | changeUnbar (s : Shared) :
    Act d t s .changeEnding { s with pushMutationMu := none } .changeUnlocking
  | changeUnlock (s : Shared) : Act d t s .changeUnlocking { s with passwordMu := none } .idle

structure World where
  shared : Shared
  threads : Nat → Thread

/-- The thread `t` makes a step. -/
def StepOf (d : Deployment) (t : Nat) (w w' : World) : Prop :=
  ∃ shared thread, Act d t w.shared (w.threads t) shared thread ∧
    w' = ⟨shared, Function.update w.threads t thread⟩

def Steps (d : Deployment) (w w' : World) : Prop := ∃ t, StepOf d t w w'

/-- A server that has just started: no request is being handled, and there is no session. -/
structure World.Initial (w : World) : Prop where
  idle : ∀ t, w.threads t = .idle
  tokens : ∀ token, ¬ w.shared.registry.Has token

end Ircthing.Api
