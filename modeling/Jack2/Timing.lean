import Jack2.Uuid
import Mathlib.Algebra.Order.Field.Rat
import Mathlib.Data.Rat.Floor
import Mathlib.Tactic.Linarith

/-!
# Times and durations

`Time` and `Duration`, `Client::frame_duration` and `ProcessScope::cycle_times` in exact
rational arithmetic: floating point numbers are the rationals they stand for, and a
`Duration` is not rounded to nanoseconds.
-/
namespace Jack2.Timing

/-- The seconds of a `Duration` are a `u64`. -/
def secsBound : ℚ := 18446744073709551616

structure Duration where
  secs : ℚ
  nonneg : 0 ≤ secs
  bounded : secs < secsBound

namespace Duration

/-- `Duration::from_secs_f64` panics outside the range. -/
def fromSecs (secs : ℚ) : Outcome Duration :=
  if h : 0 ≤ secs ∧ secs < secsBound then .done ⟨secs, h.1, h.2⟩ else .panic

theorem micros_lt (usecs : UInt64) : (usecs.toNat : ℚ) / 1000000 < secsBound := by
  have h : (usecs.toNat : ℚ) < secsBound := by
    unfold secsBound
    exact_mod_cast usecs.toNat_lt
  have hpos : (0 : ℚ) ≤ usecs.toNat := by positivity
  linarith [div_le_self hpos (by norm_num : (1 : ℚ) ≤ 1000000)]

/-- `Duration::from_micros`. -/
def fromMicros (usecs : UInt64) : Duration :=
  ⟨(usecs.toNat : ℚ) / 1000000, by positivity, micros_lt usecs⟩

/-- `Duration - Duration` panics when it would be negative. -/
def sub (a b : Duration) : Outcome Duration := fromSecs (a.secs - b.secs)

end Duration

structure Frames where
  frames : UInt32
  deriving DecidableEq, Repr

/-- Microseconds. -/
structure Time where
  usecs : UInt64
  deriving DecidableEq, Repr

namespace Time

/-- `Duration::from`. -/
def toDuration (t : Time) : Duration := .fromMicros t.usecs

end Time

/-- The answer of `jack_get_cycle_times`. -/
structure Answer where
  ret : Int
  currentFrames : UInt32
  currentUsecs : UInt64
  nextUsecs : UInt64
  periodUsecs : ℚ

structure CycleTimes where
  currentFrames : Frames
  currentTime : Time
  nextTime : Time
  period : Duration

/-- `ProcessScope::cycle_times`. -/
def cycleTimes (a : Answer) : Outcome (Except Error CycleTimes) :=
  match checkRet a.ret with
  | .error e => .done (.error e)
  | .ok () => (Duration.fromSecs (a.periodUsecs * 1000000)).map fun period =>
      .ok ⟨⟨a.currentFrames⟩, ⟨a.currentUsecs⟩, ⟨a.nextUsecs⟩, period⟩

/-- `Client::frame_duration`. Dividing by zero gives an infinity or a NaN, and both panic. -/
def frameDuration (bufferSize sampleRate : UInt32) : Outcome Duration :=
  if sampleRate = 0 then .panic
  else Duration.fromSecs ((bufferSize.toNat : ℚ) / sampleRate.toNat)

/-- One unit in a cycle of a client with this buffer size and rate: the period is that many
microseconds, the distance of the two times where that is the period, and the duration of a
buffer where that is. -/
structure OneUnit (a : Answer) (bufferSize sampleRate : UInt32) : Prop where
  period : 0 ≤ a.ret →
    ∃ t, cycleTimes a = .done (.ok t) ∧ t.period.secs = a.periodUsecs / 1000000
  clock : ∀ t, cycleTimes a = .done (.ok t) →
    (a.nextUsecs.toNat : ℚ) - a.currentUsecs.toNat = a.periodUsecs →
      t.nextTime.toDuration.sub t.currentTime.toDuration = .done t.period
  frames : ∀ t, cycleTimes a = .done (.ok t) → sampleRate ≠ 0 →
    a.periodUsecs = 1000000 * bufferSize.toNat / sampleRate.toNat →
      frameDuration bufferSize sampleRate = .done t.period

theorem fromSecs_eq_done {secs : ℚ} {d : Duration} :
    Duration.fromSecs secs = .done d ↔ d.secs = secs := by
  unfold Duration.fromSecs
  constructor
  · intro h
    split at h
    · cases h
      rfl
    · cases h
  · intro h
    subst h
    rw [dif_pos ⟨d.nonneg, d.bounded⟩]

/-- Whatever is returned has been multiplied by the million that it should be divided by. -/
theorem period_of_done {a : Answer} {t : CycleTimes} (h : cycleTimes a = .done (.ok t)) :
    t.currentTime = ⟨a.currentUsecs⟩ ∧ t.nextTime = ⟨a.nextUsecs⟩ ∧
      t.period.secs = a.periodUsecs * 1000000 := by
  unfold cycleTimes at h
  split at h
  · cases h
  · cases hsecs : Duration.fromSecs (a.periodUsecs * 1000000) with
    | done d =>
      rw [hsecs, Outcome.map, Outcome.done.injEq, Except.ok.injEq] at h
      subst h
      exact ⟨rfl, rfl, fromSecs_eq_done.mp hsecs⟩
    | panic =>
      rw [hsecs] at h
      cases h
    | undefined =>
      rw [hsecs] at h
      cases h

theorem cycleTimes_of_nonneg {a : Answer} (hret : 0 ≤ a.ret) {d : Duration}
    (hd : d.secs = a.periodUsecs * 1000000) :
    cycleTimes a = .done (.ok ⟨⟨a.currentFrames⟩, ⟨a.currentUsecs⟩, ⟨a.nextUsecs⟩, d⟩) := by
  rw [cycleTimes, checkRet_of_nonneg hret, fromSecs_eq_done.mpr hd]
  rfl

/-- A period that is negative, or not below 2 ^ 64 once multiplied, unwinds. -/
theorem cycleTimes_eq_panic_iff {a : Answer} (hret : 0 ≤ a.ret) :
    cycleTimes a = .panic ↔ a.periodUsecs < 0 ∨ secsBound ≤ a.periodUsecs * 1000000 := by
  by_cases h : 0 ≤ a.periodUsecs * 1000000 ∧ a.periodUsecs * 1000000 < secsBound
  · rw [cycleTimes_of_nonneg (d := ⟨_, h.1, h.2⟩) hret rfl]
    constructor
    · intro hp
      cases hp
    · rintro (hneg | hbig)
      · linarith [h.1]
      · linarith [h.2]
  · rw [cycleTimes, checkRet_of_nonneg hret, Duration.fromSecs, dif_neg h]
    constructor
    · intro _
      by_contra hno
      rw [not_or, not_lt, not_le] at hno
      exact h ⟨by linarith [hno.1], hno.2⟩
    · intro _
      rfl

/-- The two times are durations of one unit. -/
theorem sub_toDuration {current next : Time} {d : Duration}
    (h : ((next.usecs.toNat : ℚ) - current.usecs.toNat) / 1000000 = d.secs) :
    next.toDuration.sub current.toDuration = .done d := by
  apply fromSecs_eq_done.mpr
  rw [← h, sub_div]
  rfl

/-- A buffer of frames in the unit of the two times. -/
theorem frameDuration_eq {bufferSize sampleRate : UInt32} (hrate : sampleRate ≠ 0) {d : Duration}
    (h : 1000000 * (bufferSize.toNat : ℚ) / sampleRate.toNat / 1000000 = d.secs) :
    frameDuration bufferSize sampleRate = .done d := by
  rw [frameDuration, if_neg hrate, fromSecs_eq_done, ← h]
  ring

theorem nonneg_of_done {a : Answer} {t : CycleTimes} (h : cycleTimes a = .done (.ok t)) :
    0 ≤ a.ret := by
  by_contra hneg
  rw [cycleTimes, checkRet_of_neg (Int.not_le.mp hneg)] at h
  cases h

/-- An empty period is the same in every unit. -/
theorem oneUnit_of_empty {a : Answer} {bufferSize sampleRate : UInt32}
    (h : 0 ≤ a.ret → a.periodUsecs = 0) : OneUnit a bufferSize sampleRate := by
  have hempty : ∀ t, cycleTimes a = .done (.ok t) → a.periodUsecs = 0 ∧ t.period.secs = 0 := by
    intro t ht
    have hzero := h (nonneg_of_done ht)
    have hperiod := (period_of_done ht).2.2
    rw [hzero, zero_mul] at hperiod
    exact ⟨hzero, hperiod⟩
  constructor
  · intro hret
    have hd : (Duration.fromMicros 0).secs = 0 := by norm_num [Duration.fromMicros]
    have hcode : (Duration.fromMicros 0).secs = a.periodUsecs * 1000000 := by
      rw [hd, h hret, zero_mul]
    exists ⟨⟨a.currentFrames⟩, ⟨a.currentUsecs⟩, ⟨a.nextUsecs⟩, .fromMicros 0⟩
    constructor
    · exact cycleTimes_of_nonneg hret hcode
    · rw [hd, h hret, zero_div]
  · intro t ht hclock
    obtain ⟨hperiod, hsecs⟩ := hempty t ht
    obtain ⟨hcurrent, hnext, -⟩ := period_of_done ht
    apply sub_toDuration
    rw [hcurrent, hnext, hclock, hperiod, hsecs, zero_div]
  · intro t ht hrate hframes
    obtain ⟨hperiod, hsecs⟩ := hempty t ht
    apply frameDuration_eq hrate
    rw [← hframes, hperiod, hsecs, zero_div]

/-- The times, the period and the buffer agree in their unit for exactly the failed answers
and the answers with an empty period. -/
theorem cycleTimes_oneUnit_iff (a : Answer) (bufferSize sampleRate : UInt32) :
    OneUnit a bufferSize sampleRate ↔ (0 ≤ a.ret → a.periodUsecs = 0) := by
  constructor
  · intro h hret
    obtain ⟨t, ht, hmicros⟩ := h.period hret
    have hcode := (period_of_done ht).2.2
    rw [hcode] at hmicros
    linarith
  · exact oneUnit_of_empty

/-- A buffer of 48 frames at 48 kHz: a millisecond, and by the code more than thirty years. -/
def millisecond : Answer := ⟨0, 0, 5000, 6000, 1000⟩

theorem cycleTimes_millisecond : ¬ OneUnit millisecond 48 48000 := by
  intro h
  obtain ⟨t, ht, hmicros⟩ := h.period (by decide)
  have hcode := (period_of_done ht).2.2
  rw [hcode] at hmicros
  norm_num [millisecond] at hmicros

end Jack2.Timing
