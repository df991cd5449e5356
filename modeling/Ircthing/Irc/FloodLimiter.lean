/-
This file bounds how many messages the flood limiter of the writer lets go in a stretch of time. The
window and the difference of times are 64-bit durations.
-/

import Mathlib.Algebra.Order.Group.Int
import Mathlib.Tactic.Linarith
import Mathlib.Tactic.Ring

namespace Ircthing.Irc

/-- The largest `time.Duration`, in nanoseconds. -/
def maxDuration : Int := 2 ^ 63 - 1

/-- A `time.Duration` computed in 64 bits: it wraps. -/
def wrapDuration (value : Int) : Int := (value + 2 ^ 63) % 2 ^ 64 - 2 ^ 63

/-- `Time.Sub`, which saturates. -/
def timeSub (time since : Int) : Int := max (-maxDuration - 1) (min (time - since) maxDuration)

/-- `tokenBucket`, with times in nanoseconds since the zero time. -/
structure TokenBucket where
  interval : Int
  window : Int
  /-- `at`, the virtual time of the last send. -/
  watermark : Int
deriving DecidableEq

/-- `newTokenBucket`. -/
def newTokenBucket (burst interval : Int) : TokenBucket :=
  ⟨interval, wrapDuration (burst * interval), 0⟩

namespace TokenBucket

variable {bucket : TokenBucket} {burst now free start length : Int} {reservations : List Int}

variable (bucket) (now)

/-- `reserve`: the bucket after one more message, and how long that message waits. -/
def reserve : TokenBucket × Int :=
  let watermark := (if bucket.watermark < now then now else bucket.watermark) + bucket.interval
  ({ bucket with watermark }, wrapDuration (timeSub watermark now - bucket.window))

/-- When `wait` lets the message of a reservation go. -/
def sendTime : Int := now + max 0 (bucket.reserve now).2

/-- When the message of each reservation is sent. -/
def sends (bucket : TokenBucket) : List Int → List Int
  | [] => []
  | now :: later => bucket.sendTime now :: (bucket.reserve now).1.sends later

/-- The writer makes each reservation no earlier than the send before it. -/
def Paced (bucket : TokenBucket) (free : Int) : List Int → Prop
  | [] => True
  | now :: later => free ≤ now ∧ (bucket.reserve now).1.Paced (bucket.sendTime now) later

/-- How many messages are sent by `stop`. -/
def sentBy (reservations : List Int) (stop : Int) : Nat :=
  (bucket.sends reservations).countP (· ≤ stop)

/-- How many messages are sent in a closed interval of time. -/
def sentWithin (reservations : List Int) (start length : Int) : Nat :=
  (bucket.sends reservations).countP fun time => start ≤ time ∧ time ≤ start + length

/-- An interval and the window are a 64-bit duration together. -/
def Representable : Prop :=
  0 < bucket.interval ∧ bucket.interval + bucket.window.natAbs ≤ maxDuration

/-- What every reservation keeps: the watermark is at most the window ahead of the time. -/
structure Sound : Prop where
  representable : bucket.Representable
  ahead : bucket.watermark ≤ now + max bucket.window 0

variable {bucket} {now}

section

variable (sound : bucket.Sound free)
include sound

/-- A reservation keeps the bound, and its message goes a window before the new watermark. -/
theorem Sound.reserve (begun : free ≤ now) :
    (bucket.reserve now).1.Sound (bucket.sendTime now) ∧
      bucket.sendTime now = max now ((bucket.reserve now).1.watermark - bucket.window) ∧
      bucket.watermark + bucket.interval ≤ (bucket.reserve now).1.watermark ∧
      now + bucket.interval ≤ (bucket.reserve now).1.watermark := by
  obtain ⟨⟨positive, small⟩, _⟩ := sound
  unfold maxDuration at small
  have least : bucket.watermark + bucket.interval ≤ (bucket.reserve now).1.watermark ∧
      now + bucket.interval ≤ (bucket.reserve now).1.watermark ∧
      (bucket.reserve now).1.watermark ≤ now + max bucket.window 0 + bucket.interval := by
    simp only [TokenBucket.reserve]
    split <;> omega
  -- Within these bounds no difference saturates and no wait changes its sign.
  have wait : (bucket.reserve now).2 = (bucket.reserve now).1.watermark - now - bucket.window := by
    change wrapDuration (timeSub (bucket.reserve now).1.watermark now - bucket.window) = _
    unfold wrapDuration timeSub maxDuration
    omega
  have sent : bucket.sendTime now = max now ((bucket.reserve now).1.watermark - bucket.window) := by
    rw [sendTime, wait]
    omega
  refine ⟨⟨⟨positive, small⟩, ?_⟩, sent, least.1, least.2.1⟩
  change _ ≤ _ + max bucket.window 0
  omega

/-- Every message sent by a time has moved the watermark on by an interval. -/
theorem Sound.sentBy (paced : bucket.Paced free reservations) (stop : Int) :
    bucket.sentBy reservations stop = 0 ∨
      bucket.watermark + bucket.sentBy reservations stop * bucket.interval ≤
        stop + bucket.window := by
  induction reservations generalizing bucket free with
  | nil => exact .inl rfl
  | cons _ _ ih =>
    obtain ⟨begun, paced⟩ := paced
    obtain ⟨next, _, _, -⟩ := sound.reserve begun
    have positive := sound.representable.1
    have rest := ih next paced
    change _ ∨ _ + _ * bucket.interval ≤ _ + bucket.window at rest
    unfold TokenBucket.sentBy at *
    simp only [sends, List.countP_cons, decide_eq_true_eq]
    split
    · right
      push_cast
      rw [add_one_mul]
      obtain none | some := rest
      · rw [none]
        omega
      · omega
    · refine rest.imp id fun some => ?_
      rw [add_zero]
      omega

theorem Sound.sentWithin_le (capped : bucket.window ≤ burst * bucket.interval)
    (some : 1 ≤ burst) (nonneg : 0 ≤ length) (paced : bucket.Paced free reservations) :
    bucket.sentWithin reservations start length ≤ burst + length / bucket.interval := by
  have positive := sound.representable.1
  have least : 0 ≤ length / bucket.interval := Int.ediv_nonneg nonneg positive.le
  induction reservations generalizing bucket free with
  | nil =>
    change (0 : Int) ≤ _
    omega
  | cons now later ih =>
    obtain ⟨begun, paced⟩ := paced
    obtain ⟨next, _, -, _⟩ := sound.reserve begun
    have rest := ih next capped paced positive least
    simp only [sentWithin, sends, List.countP_cons, decide_eq_true_eq] at rest ⊢
    split
    next inside =>
      have once : bucket.interval ≤ burst * bucket.interval :=
        le_mul_of_one_le_left positive.le some
      have followed : ((bucket.reserve now).1.sends later).countP
          (fun time => start ≤ time ∧ time ≤ start + length) ≤
          (bucket.reserve now).1.sentBy later (start + length) :=
        List.countP_mono_left fun time _ within => decide_eq_true (of_decide_eq_true within).2
      have spent := next.sentBy paced (start + length)
      change _ ∨ _ + _ * bucket.interval ≤ _ + bucket.window at spent
      obtain none | spent := spent
      · omega
      · have room : ((bucket.reserve now).1.sentBy later (start + length) + 1 - burst : Int) ≤
            length / bucket.interval := by
          rw [Int.le_ediv_iff_mul_le positive, sub_mul, add_one_mul]
          omega
        omega
    next => exact rest

end

end TokenBucket

/-- Within a stretch of time at most the burst and one message for each whole interval go, whenever
an interval and the window are a 64-bit duration together. -/
theorem flood_bound (burst interval : Int) (some : 1 ≤ burst)
    (representable : (newTokenBucket burst interval).Representable) (reservations : List Int)
    (paced : (newTokenBucket burst interval).Paced 0 reservations) (start length : Int)
    (nonneg : 0 ≤ length) :
    (newTokenBucket burst interval).sentWithin reservations start length ≤
      burst + length / interval := by
  have product : 0 < burst * interval := mul_pos (by omega) representable.1
  have sound : (newTokenBucket burst interval).Sound 0 := by
    refine ⟨representable, ?_⟩
    rw [zero_add]
    exact le_max_right _ _
  refine sound.sentWithin_le ?_ some nonneg paced
  simp only [newTokenBucket, wrapDuration]
  omega

theorem flood_bound_default :
    ((newTokenBucket 16 2000000000).sentWithin [5, 6] 0 10 : Int) ≤ 16 + 10 / 2000000000 :=
  flood_bound 16 2000000000 (by decide) (by unfold TokenBucket.Representable; decide) [5, 6]
    ⟨by decide, by decide, trivial⟩ 0 10 (by decide)

/-- With an interval of 146 years and a burst of two the window is negative, and no message
waits. -/
theorem flood_bound_overflow :
    (newTokenBucket 2 (2 ^ 62)).Paced 0 [0, 0, 0] ∧
      (newTokenBucket 2 (2 ^ 62)).sends [0, 0, 0] = [0, 0, 0] ∧
      ¬((newTokenBucket 2 (2 ^ 62)).sentWithin [0, 0, 0] 0 0 : Int) ≤ 2 + 0 / 2 ^ 62 :=
  ⟨⟨by decide, by decide, by decide, trivial⟩, by decide, by decide⟩

end Ircthing.Irc
