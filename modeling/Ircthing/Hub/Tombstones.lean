/-
This file models the close tombstones of the hub.
-/

import Ircthing.Golang.Strings
import Ircthing.Library.Dict

namespace Ircthing.Hub

open Library List Option Dict

def closeGraceMs : Int := 10000

def maxRecentCloses : Nat := 1024

def maxRecentCloseBytes : Int := 2 ^ 20

def keyBytes (key : Bytes) (_ : Int) : Int := key.length

/-- `recentClose` and `recentCloseBytes`: when each buffer was closed, and the bytes of the keys. -/
structure Tombstones where
  closed : Dict Bytes Int := ∅
  bytes : Int := 0
  counted : bytes = total keyBytes closed := by rfl

namespace Tombstones

variable {tombstones : Tombstones} {time : Int}

def key (network folded : Bytes) : Bytes := network ++ 0x00 :: folded

variable (tombstones)

/-- `deleteRecentCloseLocked`. -/
def delete (key : Bytes) : Tombstones :=
  if found : (tombstones.closed.lookup key).isSome then
    { closed := tombstones.closed.erase key
      bytes := tombstones.bytes - key.length
      counted := by
        obtain ⟨time, held⟩ := isSome_iff_exists.mp found
        rw [total_erase, weightAt, held, tombstones.counted]
        rfl }
  else tombstones

def put (key : Bytes) (nowMs : Int) : Tombstones where
  closed := tombstones.closed.insert key nowMs
  bytes := if (tombstones.closed.lookup key).isSome then tombstones.bytes
    else tombstones.bytes + key.length
  counted := by
    rw [total_insert, weightAt, tombstones.counted]
    cases tombstones.closed.lookup key with
    | none =>
      simp only [isSome_none, Bool.false_eq_true, if_false, elim_none, sub_zero]
      rfl
    | some time =>
      simp only [isSome_some, if_true, elim_some]
      show _ = _ - keyBytes key time + keyBytes key time
      omega

def expired (nowMs : Int) (key : Bytes) : Bool :=
  (tombstones.closed.lookup key).any fun time => nowMs - time > closeGraceMs

variable (visit : Iteration Bytes)

/-- The first loop of `markClosed`. -/
def prune (nowMs : Int) (tombstones : Tombstones) : Tombstones :=
  (visit.order tombstones.closed.keys).foldl
    (fun held key => if held.expired nowMs key then held.delete key else held) tombstones

def olderClose (best : Option (Bytes × Int)) (key : Bytes) : Option (Bytes × Int) :=
  match tombstones.closed.lookup key, best with
  | none, best => best
  | some time, none => some (key, time)
  | some time, some (oldestKey, oldest) =>
    if time < oldest then some (key, time) else some (oldestKey, oldest)

def oldest (tombstones : Tombstones) : Option (Bytes × Int) :=
  (visit.order tombstones.closed.keys).foldl tombstones.olderClose none

def crowded : Bool :=
  maxRecentCloses < tombstones.closed.size || maxRecentCloseBytes < tombstones.bytes

/-- The second loop of `markClosed`. Every turn removes a tombstone. -/
def evictLoop (visit : Iteration Bytes) : Nat → Tombstones → Tombstones
  | 0, tombstones => tombstones
  | fuel + 1, tombstones =>
    if tombstones.crowded then
      match tombstones.oldest visit with
      | none => tombstones
      | some (key, _) => evictLoop visit fuel (tombstones.delete key)
    else tombstones

variable (network foldedBuffer : Bytes)

def markClosed (nowMs : Int) (tombstones : Tombstones) : Tombstones :=
  let marked := (tombstones.prune visit nowMs).put (key network foldedBuffer) nowMs
  evictLoop visit marked.closed.size marked

def unmarkClosed (tombstones : Tombstones) : Tombstones :=
  tombstones.delete (key network foldedBuffer)

/-- What `recentlyClosed` returns. `perform` has the tombstone that it deletes. -/
def recentlyClosed (network foldedBuffer : Bytes) (nowMs : Int) : Bool :=
  (tombstones.closed.lookup (key network foldedBuffer)).any fun time =>
    !decide (nowMs - time > closeGraceMs)

/-! ### Lookups -/

theorem lookup_delete (key other : Bytes) :
    (tombstones.delete key).closed.lookup other =
      if other = key then none else tombstones.closed.lookup other := by
  unfold delete
  split
  · exact lookup_erase_eq _ _ _
  next missing =>
    split
    next same =>
      rw [same]
      simpa using missing
    · rfl

theorem lookup_put (key other : Bytes) (nowMs : Int) :
    (tombstones.put key nowMs).closed.lookup other =
      if other = key then some nowMs else tombstones.closed.lookup other :=
  lookup_insert_eq _ _ _ _

theorem lookup_prune (nowMs : Int) (tombstones : Tombstones) (key : Bytes) (time : Int) :
    ((tombstones.prune visit nowMs).closed.lookup key = some time →
      tombstones.closed.lookup key = some time) ∧
    (tombstones.closed.lookup key = some time → ¬ nowMs - time > closeGraceMs →
      (tombstones.prune visit nowMs).closed.lookup key = some time) := by
  unfold prune
  generalize visit.order tombstones.closed.keys = keys
  induction keys generalizing tombstones with
  | nil => exact ⟨id, fun held _ => held⟩
  | cons head _ ih =>
    rw [foldl_cons]
    split
    next expires =>
      obtain ⟨earlier, later⟩ := ih (tombstones.delete head)
      rw [lookup_delete] at earlier later
      constructor
      · intro held
        have before := earlier held
        split at before
        · cases before
        · exact before
      · intro held fresh
        refine later ?_ fresh
        rw [if_neg]
        · exact held
        · rintro rfl
          rw [expired, held] at expires
          exact fresh (by simpa using expires)
    · exact ih tombstones

/-! ### The oldest tombstone -/

theorem olderClose_foldl (keys : List Bytes) (best : Option (Bytes × Int))
    (held : ∀ entry, best = some entry → tombstones.closed.lookup entry.1 = some entry.2) :
    (∀ entry, keys.foldl tombstones.olderClose best = some entry →
      tombstones.closed.lookup entry.1 = some entry.2 ∧
      (∀ first, best = some first → entry.2 ≤ first.2) ∧
      ∀ key ∈ keys, ∀ time, tombstones.closed.lookup key = some time → entry.2 ≤ time) := by
  induction keys generalizing best with
  | nil =>
    intro entry found
    refine ⟨held entry found, fun first same => ?_, nofun⟩
    rw [show best = some entry from found] at same
    cases same
    exact le_rfl
  | cons head _ ih =>
    intro entry found
    rw [foldl_cons] at found
    cases stands : tombstones.closed.lookup head with
    | none =>
      have turn : tombstones.olderClose best head = best := by
        unfold olderClose
        rw [stands]
      rw [turn] at found
      obtain ⟨kept, below, least⟩ := ih best held entry found
      refine ⟨kept, below, fun key member time looked => ?_⟩
      rcases mem_cons.mp member with rfl | later
      · rw [stands] at looked
        cases looked
      · exact least key later time looked
    | some headTime =>
      -- the turn keeps the older of the best entry so far and this one
      have turn : ∃ next, tombstones.olderClose best head = some next ∧
          tombstones.closed.lookup next.1 = some next.2 ∧ next.2 ≤ headTime ∧
          ∀ first, best = some first → next.2 ≤ first.2 := by
        unfold olderClose
        rw [stands]
        cases best with
        | none => exact ⟨_, rfl, stands, le_rfl, nofun⟩
        | some first =>
          dsimp only
          split
          next older =>
            exact ⟨_, rfl, stands, le_rfl, fun _ same => by cases same; exact older.le⟩
          next younger =>
            exact ⟨_, rfl, held first rfl, not_lt.mp younger,
              fun _ same => by cases same; exact le_rfl⟩
      obtain ⟨next, turned, nextHeld, belowHead, belowBest⟩ := turn
      rw [turned] at found
      obtain ⟨kept, below, least⟩ := ih (some next)
        (fun _ same => by cases same; exact nextHeld) entry found
      refine ⟨kept, fun first same => (below next rfl).trans (belowBest first same),
        fun key member time looked => ?_⟩
      rcases mem_cons.mp member with rfl | later
      · rw [stands] at looked
        cases looked
        exact (below next rfl).trans belowHead
      · exact least key later time looked

variable {tombstones}

theorem oldest_least {visit : Iteration Bytes} {entry : Bytes × Int}
    (found : tombstones.oldest visit = some entry) :
    tombstones.closed.lookup entry.1 = some entry.2 ∧
      ∀ key time, tombstones.closed.lookup key = some time → entry.2 ≤ time := by
  obtain ⟨kept, -, least⟩ := olderClose_foldl tombstones _ none nofun entry found
  refine ⟨kept, fun key time looked => least key ?_ time looked⟩
  refine (visit.perm _).mem_iff.mpr ?_
  exact AList.lookup_isSome.mp (by rw [looked]; rfl)

/-! ### The bounds -/

def countFrom (time : Int) (tombstones : Tombstones) : Int :=
  total (fun _ closed => if time ≤ closed then 1 else 0) tombstones.closed

def bytesFrom (time : Int) (tombstones : Tombstones) : Int :=
  total (fun key closed => if time ≤ closed then keyBytes key closed else 0) tombstones.closed

def Fits (time : Int) (tombstones : Tombstones) : Prop :=
  tombstones.countFrom time ≤ maxRecentCloses ∧ tombstones.bytesFrom time ≤ maxRecentCloseBytes

instance (time : Int) (tombstones : Tombstones) : Decidable (tombstones.Fits time) :=
  inferInstanceAs (Decidable (_ ∧ _))

theorem Fits.of_lookup {more fewer : Tombstones} (fits : more.Fits time)
    (within : ∀ key closed, fewer.closed.lookup key = some closed →
      more.closed.lookup key = some closed) : fewer.Fits time := by
  have lighter : ∀ weight : Bytes → Int → Int, (∀ key closed, 0 ≤ weight key closed) →
      total weight fewer.closed ≤ total weight more.closed := by
    intro weight nonneg
    have same : total weight fewer.closed =
        total (fun key _ => more.closed.weightAt weight key) fewer.closed :=
      total_congr_weight fun key closed looked => by
        rw [weightAt, within key closed looked]
        rfl
    rw [same]
    exact total_weightAt_le fewer.closed more.closed nonneg
  refine ⟨(lighter _ fun _ closed => ?_).trans fits.1,
    (lighter _ fun key closed => ?_).trans fits.2⟩
  · split <;> decide
  · split
    · exact Int.natCast_nonneg _
    · exact le_rfl

theorem Fits.not_crowded (fits : tombstones.Fits time)
    (least : ∀ key closed, tombstones.closed.lookup key = some closed → time ≤ closed) :
    tombstones.crowded = false := by
  have count : tombstones.countFrom time = tombstones.closed.size := by
    rw [size_eq_total]
    exact total_congr_weight fun key closed looked => if_pos (least key closed looked)
  have bytes : tombstones.bytesFrom time = tombstones.bytes := by
    rw [tombstones.counted]
    exact total_congr_weight fun key closed looked => if_pos (least key closed looked)
  obtain ⟨few, small⟩ := fits
  rw [count] at few
  rw [bytes] at small
  rw [crowded, Bool.or_eq_false_iff, decide_eq_false_iff_not, decide_eq_false_iff_not]
  exact ⟨not_lt.mpr (by exact_mod_cast few), not_lt.mpr small⟩

theorem lookup_evictLoop {from_ : Int} {key : Bytes}
    (young : from_ ≤ time) (fuel : Nat) (tombstones : Tombstones) (fits : tombstones.Fits from_)
    (held : tombstones.closed.lookup key = some time) :
    (evictLoop visit fuel tombstones).closed.lookup key = some time := by
  induction fuel generalizing tombstones with
  | zero => exact held
  | succ _ ih =>
    rw [evictLoop]
    split
    next crowds =>
      split
      · exact held
      rename_i victim victimTime found
      obtain ⟨-, least⟩ := oldest_least found
      have spared : key ≠ victim := by
        rintro rfl
        -- no tombstone is older than this one, so that the bounds are met
        have kept := (oldest_least found).1
        rw [held] at kept
        cases kept
        rw [fits.not_crowded fun other closed looked => young.trans (least other closed looked)]
          at crowds
        cases crowds
      refine ih _ (fits.of_lookup fun other closed looked => ?_) ?_
      · rw [lookup_delete] at looked
        split at looked
        · cases looked
        · exact looked
      · rw [lookup_delete, if_neg spared]
        exact held
    · exact held

theorem lookup_markClosed {network folded : Bytes} {nowMs from_ : Int}
    (fits : (tombstones.put (key network folded) nowMs).Fits from_) {other : Bytes}
    (held : (tombstones.put (key network folded) nowMs).closed.lookup other = some time)
    (young : from_ ≤ time) (fresh : ¬ nowMs - time > closeGraceMs) :
    (tombstones.markClosed visit network folded nowMs).closed.lookup other = some time := by
  refine lookup_evictLoop visit young _ _ (fits.of_lookup fun candidate closed looked => ?_) ?_
  · rw [lookup_put] at looked ⊢
    split at looked
    next same =>
      rw [if_pos same, looked]
    next different =>
      rw [if_neg different]
      exact (lookup_prune visit nowMs tombstones candidate closed).1 looked
  · rw [lookup_put] at held ⊢
    split at held
    next same =>
      rw [if_pos same, held]
    next different =>
      rw [if_neg different]
      exact (lookup_prune visit nowMs tombstones other time).2 held fresh

/-! ### The caps -/

theorem oldest_isSome {key : Bytes}
    (member : key ∈ tombstones.closed.keys) : (tombstones.oldest visit).isSome := by
  have loop : ∀ (keys : List Bytes) (best : Option (Bytes × Int)),
      best.isSome ∨ (∃ key ∈ keys, (tombstones.closed.lookup key).isSome) →
        (keys.foldl tombstones.olderClose best).isSome := by
    intro keys
    induction keys with
    | nil => simp
    | cons head keys ih =>
      intro best some
      refine ih _ ?_
      unfold olderClose
      cases held : tombstones.closed.lookup head with
      | none => simpa [held] using some
      | some =>
        left
        cases best with
        | none => rfl
        | some =>
          dsimp only
          split <;> rfl
  exact loop _ _ (.inr ⟨key, (visit.perm _).mem_iff.mpr member, AList.lookup_isSome.mpr member⟩)

variable (fuel : Nat)

theorem evictLoop_not_crowded (tombstones : Tombstones) (enough : tombstones.closed.size ≤ fuel) :
    (evictLoop visit fuel tombstones).crowded = false := by
  have empty (tombstones : Tombstones) (nothing : tombstones.closed.keys = []) :
      tombstones.crowded = false := by
    have same : tombstones.closed = ∅ := AList.ext (map_eq_nil_iff.mp nothing)
    rw [crowded, tombstones.counted, same]
    rfl
  induction fuel generalizing tombstones with
  | zero => exact empty _ (length_eq_zero_iff.mp (Nat.le_zero.mp (size_eq_length_keys _ ▸ enough)))
  | succ fuel ih =>
    rw [evictLoop]
    split
    · split
      next nothing =>
        refine empty _ (eq_nil_iff_forall_not_mem.mpr fun key member => ?_)
        have found := oldest_isSome visit member
        rw [nothing] at found
        cases found
      next key _ found =>
        have held := isSome_iff_exists.mpr ⟨_, (oldest_least found).1⟩
        have erased := size_erase tombstones.closed key
        rw [if_pos held] at erased
        refine ih _ ?_
        rw [delete, dif_pos held]
        dsimp only
        omega
    next fits =>
      exact Bool.not_eq_true _ ▸ fits

theorem of_lookup_evictLoop (tombstones : Tombstones)
    {key : Bytes} (absent : tombstones.closed.lookup key = none) :
    (evictLoop visit fuel tombstones).closed.lookup key = none := by
  induction fuel generalizing tombstones with
  | zero => exact absent
  | succ fuel ih =>
    rw [evictLoop]
    split
    · split
      · exact absent
      · refine ih _ ?_
        rw [lookup_delete, absent, ite_self]
    · exact absent

theorem lookup_evictLoop_oldest {key : Bytes}
    (crowds : tombstones.crowded = true) (held : tombstones.closed.lookup key = some time)
    (others : ∀ other closed, tombstones.closed.lookup other = some closed → other ≠ key →
      time < closed) : (evictLoop visit (fuel + 1) tombstones).closed.lookup key = none := by
  have member : key ∈ tombstones.closed.keys := AList.lookup_isSome.mp (held ▸ rfl)
  obtain ⟨⟨victim, _⟩, found⟩ := isSome_iff_exists.mp (oldest_isSome visit member)
  obtain ⟨kept, least⟩ := oldest_least found
  obtain rfl : victim = key := by_contra fun different =>
    absurd (least key time held) (not_le.mpr (others _ _ kept different))
  rw [evictLoop, if_pos crowds, found]
  exact of_lookup_evictLoop visit fuel _ (by rw [lookup_delete, if_pos rfl])

inductive Call
  | mark (visit : Iteration Bytes) (network folded : Bytes) (nowMs : Int)
  | unmark (network folded : Bytes)
  | recent (network folded : Bytes) (nowMs : Int)

/-- What a call leaves of the tombstones. -/
def perform (tombstones : Tombstones) : Call → Tombstones
  | .mark visit network folded nowMs => tombstones.markClosed visit network folded nowMs
  | .unmark network folded => tombstones.unmarkClosed network folded
  | .recent network folded nowMs =>
    if tombstones.expired nowMs (key network folded) then tombstones.delete (key network folded)
    else tombstones

/-- The caps hold after every mark, and what was marked is held if the tombstones that are not older
fit the caps. -/
theorem tombstones_bounded (calls : List Call) (visit : Iteration Bytes)
    (network folded : Bytes) (nowMs : Int) :
    let before := calls.foldl perform {}
    let after := before.perform (.mark visit network folded nowMs)
    before.bytes = total keyBytes before.closed ∧ after.closed.size ≤ maxRecentCloses ∧
      after.bytes ≤ maxRecentCloseBytes ∧
      ((before.put (key network folded) nowMs).Fits nowMs →
        after.closed.lookup (key network folded) = some nowMs) := by
  intro before after
  have within : after.crowded = false := evictLoop_not_crowded visit _ _ le_rfl
  rw [crowded, Bool.or_eq_false_iff, decide_eq_false_iff_not, decide_eq_false_iff_not] at within
  refine ⟨before.counted, not_lt.mp within.1, not_lt.mp within.2, fun fits => ?_⟩
  refine lookup_markClosed visit fits ?_ le_rfl (by simp [closeGraceMs])
  rw [lookup_put, if_pos rfl]

theorem tombstones_bounded_go :
    (perform {} (.mark .plain (lit "libera") (lit "#go") 0)).closed.lookup
      (key (lit "libera") (lit "#go")) = some 0 :=
  (tombstones_bounded [] .plain (lit "libera") (lit "#go") 0).2.2.2 (by decide +kernel)

/-! ### A clock that steps back -/

theorem prune_of_fresh {nowMs : Int} (fresh : ∀ key, tombstones.expired nowMs key = false) :
    tombstones.prune visit nowMs = tombstones :=
  foldl_fixed' (fun key => by rw [fresh]; rfl) _

/-- Where nothing has expired and the caps leave room, a mark only puts its own tombstone. -/
theorem markClosed_of_room {network folded : Bytes} {nowMs : Int}
    (fresh : ∀ key, tombstones.expired nowMs key = false)
    (room : (tombstones.put (key network folded) nowMs).crowded = false) :
    tombstones.markClosed visit network folded nowMs =
      tombstones.put (key network folded) nowMs := by
  rw [markClosed, prune_of_fresh visit fresh]
  cases (tombstones.put (key network folded) nowMs).closed.size with
  | zero => rfl
  | succ => rw [evictLoop, room, if_neg Bool.false_ne_true]

/-- The channel named by a number of four digits. -/
def numbered (index : Nat) : Bytes :=
  0x23 :: [index / 1000, index / 100 % 10, index / 10 % 10, index % 10].map fun digit =>
    .ofNat (0x30 + digit)

/-- The calls that close `count` channels of one network in the same millisecond. -/
def closesAtOnce : Nat → List Call
  | 0 => []
  | count + 1 => closesAtOnce count ++ [.mark .plain (lit "libera") (numbered count) 1]

/-- What `closesAtOnce` leaves: a tombstone of twelve bytes for each channel. -/
structure ClosedAtOnce (count : Nat) (tombstones : Tombstones) : Prop where
  size : tombstones.closed.size = count
  bytes : tombstones.bytes = 12 * count
  held : ∀ key time, tombstones.closed.lookup key = some time →
    time = 1 ∧ ∃ index < count, key = Tombstones.key (lit "libera") (numbered index)

theorem numbered_ne {first second : Nat} (below : first < second) (within : second < 1024) :
    key (lit "libera") (numbered second) ≠ key (lit "libera") (numbered first) := by
  intro same
  have digits := append_cancel_left same
  simp only [numbered, map_cons, map_nil, cons.injEq, ← UInt8.toNat_inj, UInt8.toNat_ofNat',
    and_true, true_and] at digits
  omega

namespace ClosedAtOnce

variable {count : Nat} {nowMs : Int} (closed : ClosedAtOnce count tombstones)
include closed

theorem fresh (early : nowMs ≤ 1) (key : Bytes) : tombstones.expired nowMs key = false := by
  unfold expired
  cases looked : tombstones.closed.lookup key with
  | none => rfl
  | some time =>
    obtain ⟨rfl, -⟩ := closed.held key time looked
    simp only [any_some, closeGraceMs, gt_iff_lt, decide_eq_false_iff_not]
    omega

theorem put (folded : Bytes) (nowMs : Int)
    (new : ∀ index < count, key (lit "libera") folded ≠ key (lit "libera") (numbered index)) :
    (tombstones.put (key (lit "libera") folded) nowMs).closed.size = count + 1 ∧
      (tombstones.put (key (lit "libera") folded) nowMs).bytes =
        12 * count + (7 + folded.length : Nat) := by
  have absent : tombstones.closed.lookup (key (lit "libera") folded) = none :=
    eq_none_iff_forall_ne_some.mpr fun time looked => by
      obtain ⟨-, index, below, same⟩ := closed.held _ time looked
      exact new index below same
  have length : (key (lit "libera") folded).length = 7 + folded.length := by
    rw [key, length_append, length_cons, Nat.add_comm _ 1, ← Nat.add_assoc]
    rfl
  constructor
  · have grown := size_insert tombstones.closed (key (lit "libera") folded) nowMs
    rw [absent, closed.size] at grown
    exact Int.ofNat_inj.mp grown
  · show (if (tombstones.closed.lookup _).isSome then _ else _) = _
    rw [absent, closed.bytes, length]
    rfl

end ClosedAtOnce

theorem closesAtOnce_closed (count : Nat) (within : count ≤ maxRecentCloses) :
    ClosedAtOnce count ((closesAtOnce count).foldl perform {}) := by
  induction count with
  | zero => exact ⟨rfl, rfl, nofun⟩
  | succ count ih =>
    have closed := ih (Nat.le_of_succ_le within)
    rw [maxRecentCloses] at within
    obtain ⟨size, bytes⟩ := closed.put _ 1 fun _ below => numbered_ne below within
    rw [closesAtOnce, foldl_append, foldl_cons, foldl_nil, perform,
      markClosed_of_room .plain (closed.fresh le_rfl)]
    · refine ⟨size, bytes.trans ?_, fun key time looked => ?_⟩
      · rw [show (numbered count).length = 5 from rfl]
        omega
      · rw [lookup_put] at looked
        split at looked
        next same =>
          cases looked
          exact ⟨rfl, count, count.lt_succ_self, same⟩
        next =>
          obtain ⟨rfl, index, below, same⟩ := closed.held key time looked
          exact ⟨rfl, index, below.trans count.lt_succ_self, same⟩
    · rw [crowded, size, bytes, show (numbered count).length = 5 from rfl,
        Bool.or_eq_false_iff, decide_eq_false_iff_not, decide_eq_false_iff_not, maxRecentCloses,
        maxRecentCloseBytes]
      omega

/-- A mark with an earlier time is the oldest of one tombstone too many. -/
theorem ClosedAtOnce.evicts (closed : ClosedAtOnce maxRecentCloses tombstones) :
    (tombstones.markClosed .plain (lit "libera") (lit "#formal") 0).closed.lookup
      (key (lit "libera") (lit "#formal")) = none := by
  obtain ⟨size, -⟩ := closed.put (lit "#formal") 0
    fun index _ same => absurd (congrArg List.length (append_cancel_left same))
      (show ¬ 8 = 6 by decide)
  rw [markClosed, prune_of_fresh .plain (closed.fresh (by decide)), size]
  refine lookup_evictLoop_oldest .plain _ ?_ ((lookup_put ..).trans (if_pos rfl)) ?_
  · rw [crowded, size, decide_eq_true (Nat.lt_succ_self _), Bool.true_or]
  · intro other closedAt held separate
    rw [lookup_put, if_neg separate] at held
    rw [(closed.held other closedAt held).1]
    decide

/-- The clock steps back by a millisecond after 1024 closes: the buffer just marked is evicted. -/
theorem stepped_back_evicted :
    ((closesAtOnce maxRecentCloses ++ [Call.mark .plain (lit "libera") (lit "#formal") 0]).foldl
      perform {}).closed.lookup (key (lit "libera") (lit "#formal")) = none := by
  have closed := closesAtOnce_closed maxRecentCloses le_rfl
  rw [foldl_append, foldl_cons, foldl_nil]
  generalize (closesAtOnce maxRecentCloses).foldl perform {} = before at closed
  exact closed.evicts

end Tombstones

end Ircthing.Hub
