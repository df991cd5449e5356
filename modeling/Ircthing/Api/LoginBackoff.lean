/-
This file models the backoff of failed logins, and proves which password comparisons it gates.

A login and a password change test the backoff of their source, wait for one of the two hashing
slots, compare, and record the outcome after they have given the slot back. What is recorded between
the test and the comparison is not looked at again.
-/

import Ircthing.Golang.Strings
import Ircthing.Library.Dict
import Mathlib.Logic.Relation

namespace Ircthing.Api.LoginLimit

open Library Relation

/-! ### Recorded failures -/

structure LoginSource where
  failures : Nat := 0
  /-- In nanoseconds. -/
  blockedUntil : Int := 0
  blockLogged : Bool := false

def loginBackoffBase : Int := 10 ^ 9

def loginBackoffMax : Int := 60 * 10 ^ 9

def loginSourcesMax : Nat := 1024

abbrev Sources := Dict Bytes LoginSource

variable (sources : Sources) (key : Bytes) (now : Int)

/-- The wait of `retryAfter` is positive. -/
def blocked : Bool :=
  (sources.lookup key).any fun source => now < source.blockedUntil

/-- What `retryAfterLogged` leaves of the table. -/
def logged : Sources :=
  if blocked sources key now then
    sources.modify key fun source => { source with blockLogged := true }
  else sources

def LoginSource.failed (source : LoginSource) (now : Int) : LoginSource where
  failures := source.failures + 1
  blockedUntil := now + min (loginBackoffBase * 2 ^ min source.failures 6) loginBackoffMax

def pruned : Sources :=
  if loginSourcesMax ≤ sources.size then
    sources.keep fun _ source => !decide (source.blockedUntil < now)
  else sources

def fail : Sources :=
  match sources.lookup key with
  | some source => sources.insert key (source.failed now)
  | none =>
    if loginSourcesMax ≤ (pruned sources now).size then pruned sources now
    else (pruned sources now).insert key (LoginSource.failed {} now)

variable {sources : Sources} {key other : Bytes} {now : Int}

theorem blocked_of_later {elapsed : Nat} (is : blocked sources key (now + elapsed) = true) :
    blocked sources key now = true := by
  unfold blocked at is ⊢
  cases found : sources.lookup key with
  | none => rw [found] at is; exact is
  | some source =>
    rw [found] at is
    have early : now + elapsed < source.blockedUntil := of_decide_eq_true is
    exact decide_eq_true (by omega)

theorem blocked_logged : blocked (logged sources other now) key now = blocked sources key now := by
  unfold logged
  split
  · unfold blocked
    rw [Dict.lookup_modify]
    split
    · cases sources.lookup key <;> rfl
    · rfl
  · rfl

theorem blocked_pruned (is : blocked (pruned sources now) key now = true) :
    blocked sources key now = true := by
  unfold pruned at is
  split at is
  · unfold blocked at is ⊢
    rw [Dict.lookup_keep] at is
    cases found : sources.lookup key with
    | none => rw [found] at is; exact is
    | some source =>
      rw [found, Option.filter_some] at is
      split at is
      · exact is
      · cases is
  · exact is

theorem blocked_fail (different : key ≠ other)
    (is : blocked (fail sources other now) key now = true) : blocked sources key now = true := by
  have inserted : ∀ {table : Sources} {source}, blocked (table.insert other source) key now =
      blocked table key now := by
    intro table source
    rw [blocked, Dict.lookup_insert_eq, if_neg different, blocked]
  unfold fail at is
  split at is
  · rwa [inserted] at is
  · split at is
    · exact blocked_pruned is
    · exact blocked_pruned (inserted ▸ is)

/-! ### Requests -/

inductive Stage
  | admitted | locked | tested
  /-- A hashing slot is taken. -/
  | slotted
  | comparing
  | judged (matched : Bool)
  /-- A password change that still holds its lock. -/
  | ending

structure Request where
  source : Bytes
  change : Bool
  stage : Stage

def Request.waits (request : Request) : Prop := request.stage = .tested ∨ request.stage = .slotted

def ended (source : Bytes) (change : Bool) : Option Request :=
  if change then some ⟨source, true, .ending⟩ else none

structure Shared where
  now : Int := 0
  sources : Sources := ∅
  slots : Nat := 0
  passwordMu : Option Nat := none

variable (bucket : Bytes → Bytes)

def Shared.inBackoff (s : Shared) (source : Bytes) : Bool :=
  blocked s.sources (bucket source) s.now

/-- One step of the thread `t`. The global bucket, the session and the wait for a slot may refuse a
request at any time. -/
inductive Act (t : Nat) : Shared → Option Request → Shared → Option Request → Prop
  | tick (s : Shared) (request : Option Request) (elapsed : Nat) :
    Act t s request { s with now := s.now + elapsed } request
  | login (s : Shared) (source : Bytes) (free : s.inBackoff bucket source = false) :
    Act t s none s (some ⟨source, false, .tested⟩)
  | loginBlocked (s : Shared) (source : Bytes) :
    Act t s none { s with sources := logged s.sources (bucket source) s.now } none
  | change (s : Shared) (source : Bytes) (free : s.inBackoff bucket source = false) :
    Act t s none s (some ⟨source, true, .admitted⟩)
  | lock (s : Shared) (source : Bytes) (unlocked : s.passwordMu = none) :
    Act t s (some ⟨source, true, .admitted⟩) { s with passwordMu := some t }
      (some ⟨source, true, .locked⟩)
  | bounce (s : Shared) (source : Bytes) : Act t s (some ⟨source, true, .admitted⟩) s none
  | recheck (s : Shared) (source : Bytes) (free : s.inBackoff bucket source = false) :
    Act t s (some ⟨source, true, .locked⟩) s (some ⟨source, true, .tested⟩)
  | recheckBlocked (s : Shared) (source : Bytes) :
    Act t s (some ⟨source, true, .locked⟩) s (some ⟨source, true, .ending⟩)
  | busy (s : Shared) (source : Bytes) (change : Bool) :
    Act t s (some ⟨source, change, .tested⟩) s (ended source change)
  | acquire (s : Shared) (source : Bytes) (change : Bool) (slot : s.slots < 2) :
    Act t s (some ⟨source, change, .tested⟩) { s with slots := s.slots + 1 }
      (some ⟨source, change, .slotted⟩)
  | compare (s : Shared) (source : Bytes) (change : Bool) :
    Act t s (some ⟨source, change, .slotted⟩) s (some ⟨source, change, .comparing⟩)
  | release (s : Shared) (source : Bytes) (change matched : Bool) :
    Act t s (some ⟨source, change, .comparing⟩) { s with slots := s.slots - 1 }
      (some ⟨source, change, .judged matched⟩)
  | ok (s : Shared) (source : Bytes) (change : Bool) :
    Act t s (some ⟨source, change, .judged true⟩)
      { s with sources := s.sources.erase (bucket source) } (ended source change)
  | fail (s : Shared) (source : Bytes) (change : Bool) :
    Act t s (some ⟨source, change, .judged false⟩)
      { s with sources := fail s.sources (bucket source) s.now } (ended source change)
  | unlock (s : Shared) (source : Bytes) :
    Act t s (some ⟨source, true, .ending⟩) { s with passwordMu := none } none

structure World where
  shared : Shared := {}
  requests : Nat → Option Request := fun _ => none

/-- A thread that records a failure does so while no other request of its source is between its
last test and its comparison. -/
def Orderly (world : World) (t : Nat) : Prop :=
  ∀ request ∈ world.requests t, request.stage = .judged false →
    ∀ other, ∀ waiting ∈ world.requests other, waiting.waits →
      bucket waiting.source ≠ bucket request.source

/-- A step of one thread that meets a condition where it is taken. -/
inductive Step (meets : World → Nat → Prop) (world : World) : World → Prop
  | thread {t : Nat} {shared : Shared} {request : Option Request} (met : meets world t)
      (act : Act bucket t world.shared (world.requests t) shared request) :
      Step meets world ⟨shared, Function.update world.requests t request⟩

def Gated (world : World) : Prop :=
  ∀ t, ∀ request ∈ world.requests t, request.waits →
    ¬ world.shared.inBackoff bucket request.source = true

variable {bucket} {world : World} {t : Nat} {shared : Shared} {request : Option Request}

theorem Gated.update (gated : Gated bucket world)
    (kept : ∀ source, shared.inBackoff bucket source = true →
      world.shared.inBackoff bucket source = true)
    (free : ∀ waiting ∈ request, waiting.waits →
      ¬ shared.inBackoff bucket waiting.source = true) :
    Gated bucket ⟨shared, Function.update world.requests t request⟩ := by
  intro other waiting found waits
  dsimp only at found
  rw [Function.update_apply] at found
  split at found
  · exact free waiting found waits
  · exact fun blocked => gated other waiting found waits (kept _ blocked)

theorem not_waits_of_ended {source : Bytes} {change : Bool} {waiting : Request}
    (found : waiting ∈ ended source change) : ¬ waiting.waits := by
  cases change <;> cases found
  rintro (wrong | wrong) <;> cases wrong

theorem Gated.act (gated : Gated bucket world) (orderly : Orderly bucket world t)
    (act : Act bucket t world.shared (world.requests t) shared request) :
    Gated bucket ⟨shared, Function.update world.requests t request⟩ := by
  obtain ⟨s, requests⟩ := world
  dsimp only at act
  generalize held : requests t = before at act
  cases act with
  | tick _ elapsed =>
    refine gated.update (fun _ => blocked_of_later) fun waiting found waits is => ?_
    exact gated t waiting (held.trans found) waits (blocked_of_later is)
  | login source free | recheck source free =>
    refine gated.update (fun _ => id) ?_
    rintro _ ⟨⟩ _
    exact Bool.not_eq_true _ ▸ free
  | loginBlocked source =>
    exact gated.update (fun _ is => blocked_logged.symm.trans is) nofun
  | acquire source change =>
    refine gated.update (fun _ => id) ?_
    rintro _ ⟨⟩ _
    exact gated t ⟨source, change, .tested⟩ held (.inl rfl)
  | ok source change =>
    refine gated.update (fun other is => ?_) fun _ found waits =>
      absurd waits (not_waits_of_ended found)
    unfold Shared.inBackoff blocked at is ⊢
    rw [Dict.lookup_erase_eq] at is
    split at is
    · cases is
    · exact is
  | fail source change =>
    -- the other waiting requests have other buckets, whose entries can only be pruned
    intro other waiting found waits is
    dsimp only at found
    rw [Function.update_apply] at found
    split at found
    · exact not_waits_of_ended found waits
    · exact gated other waiting found waits
        (blocked_fail (orderly _ held rfl other waiting found waits) is)
  | busy source change =>
    exact gated.update (fun _ => id) fun _ found waits => absurd waits (not_waits_of_ended found)
  | bounce | unlock => exact gated.update (fun _ => id) nofun
  | change | lock | recheckBlocked | compare | release =>
    refine gated.update (fun _ => id) ?_
    rintro _ ⟨⟩ (wrong | wrong) <;> cases wrong

theorem gated_of_run (run : ReflTransGen (Step bucket (Orderly bucket)) {} world) :
    Gated bucket world := by
  induction run with
  | refl => exact fun _ _ found => by cases found
  | tail _ step ih =>
    cases step with
    | thread orderly act => exact ih.act orderly act

/-- In every interleaving in which failures are recorded in order, no request whose comparison is
about to start is in backoff. -/
theorem comparisons_gated (bucket : Bytes → Bytes) (world : World)
    (run : ReflTransGen (Step bucket (Orderly bucket)) {} world) (t : Nat) (source : Bytes)
    (change : Bool) (starts : world.requests t = some ⟨source, change, .slotted⟩) :
    world.shared.inBackoff bucket source = false :=
  Bool.not_eq_true _ ▸ gated_of_run run t _ starts (.inr rfl)

/-- A login fails and is recorded while another source waits for its comparison: the first source is
in backoff, the second compares. -/
theorem comparisons_gated_login :
    ∃ world : World, ReflTransGen (Step id (Orderly id)) {} world ∧
      world.shared.inBackoff id (lit "10.0.0.1") = true ∧
      world.requests 1 = some ⟨lit "10.0.0.2", false, .slotted⟩ ∧
      world.shared.inBackoff id (lit "10.0.0.2") = false := by
  have first : ReflTransGen (Step id (Orderly id)) {} _ :=
    .single (.thread (t := 0) (by rintro _ ⟨⟩) (.login {} (lit "10.0.0.1") rfl))
  have second := first.tail (.thread (t := 1) (by rintro _ ⟨⟩) (.login _ (lit "10.0.0.2") rfl))
  have slot := second.tail (.thread (t := 0) (by rintro _ ⟨⟩ ⟨⟩) (.acquire _ _ _ (by decide)))
  have compared := slot.tail (.thread (t := 0) (by rintro _ ⟨⟩ ⟨⟩) (.compare _ _ _))
  have judged := compared.tail (.thread (t := 0) (by rintro _ ⟨⟩ ⟨⟩) (.release _ _ _ false))
  have failed := judged.tail (.thread (t := 0) (by
    rintro _ ⟨⟩ - other waiting found waits
    simp only [Function.update_apply] at found
    split at found
    · cases found
      rcases waits with wrong | wrong <;> cases wrong
    · split at found <;> cases found
      decide) (.fail _ _ _))
  have slotted := failed.tail (.thread (t := 1) (by rintro _ ⟨⟩ ⟨⟩) (.acquire _ _ _ (by decide)))
  exact ⟨_, slotted, by decide +kernel, rfl, comparisons_gated id _ slotted 1 _ _ rfl⟩

/-- Two logins pass the test, and the second is compared after the first has failed. -/
theorem comparison_starts_in_backoff :
    ∃ world : World, ReflTransGen (Step id fun _ _ => True) {} world ∧
      world.requests 1 = some ⟨lit "10.0.0.1", false, .slotted⟩ ∧
      world.shared.inBackoff id (lit "10.0.0.1") = true := by
  have first : ReflTransGen (Step id fun _ _ => True) {} _ :=
    .single (.thread (t := 0) trivial (.login {} (lit "10.0.0.1") rfl))
  have second := first.tail (.thread (t := 1) trivial (.login _ (lit "10.0.0.1") rfl))
  have slot := second.tail (.thread (t := 0) trivial (.acquire _ _ _ (by decide)))
  have slots := slot.tail (.thread (t := 1) trivial (.acquire _ _ _ (by decide)))
  have compared := slots.tail (.thread (t := 0) trivial (.compare _ _ _))
  have judged := compared.tail (.thread (t := 0) trivial (.release _ _ _ false))
  exact ⟨_, judged.tail (.thread (t := 0) trivial (.fail _ _ _)), rfl, by decide +kernel⟩

end Ircthing.Api.LoginLimit
