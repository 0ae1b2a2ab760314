import Mathlib.Data.Nat.Log
import Mathlib.Tactic.Linarith
import Mathlib.Tactic.SplitIfs

/-!
# Configured windows, their validation, and the bucket ladder

A window is a recipient cap over a duration. Validation admits whole seconds
between one minute and 31 days. Messages are aggregated into buckets whose size is
the largest power of two of seconds that still fits fifty times into the duration.
-/
namespace PostfixRatelimitd

/-- A duration as the standard library splits it. -/
structure Duration where
  secs : ℕ
  subsecNanos : ℕ
  subsecNanos_lt : subsecNanos < 1000000000
  deriving DecidableEq, Repr

namespace Duration

def fromSecs (secs : ℕ) : Duration := ⟨secs, 0, by decide⟩

@[simp] theorem fromSecs_secs (secs : ℕ) : (fromSecs secs).secs = secs := rfl

/-- Durations compare by seconds first, then by nanoseconds. -/
instance : LT Duration where
  lt a b := a.secs < b.secs ∨ (a.secs = b.secs ∧ a.subsecNanos < b.subsecNanos)

theorem lt_iff (a b : Duration) :
    a < b ↔ a.secs < b.secs ∨ (a.secs = b.secs ∧ a.subsecNanos < b.subsecNanos) := Iff.rfl

instance (a b : Duration) : Decidable (a < b) := decidable_of_iff _ (lt_iff a b).symm

end Duration

/-- One recipient-count cap over a sliding time window. -/
structure Window where
  count : UInt32
  duration : Duration
  deriving DecidableEq, Repr

def minWindowDuration : Duration := .fromSecs 60
def maxWindowDuration : Duration := .fromSecs (31 * 24 * 3600)
def bucketTargetCount : ℕ := 50
def minBucketSize : Duration := .fromSecs 1
def maxBucketSize : Duration := .fromSecs (24 * 3600)

/-- Why loading or validating a config file failed. Errors of the file system, of
the TOML and regex parsers and of the redis URL parser are not spelled out. -/
inductive ConfigError
  | read (path : String)
  | parse (path : String)
  | badRedisUrl (url : String)
  | ambiguousPassword
  | readPasswordFile (path : String)
  | badRegex (index : ℕ)
  | emptyUsername (index : ℕ)
  | defaultCount (count : ℕ)
  | noWindows (index : ℕ)
  | windowsWithUnrestricted (index : ℕ)
  | redundantUnrestrictedFalse (index : ℕ)
  | windowTooShort (index : ℕ) (duration : Duration)
  | windowTooLong (index : ℕ) (duration : Duration)
  | controlSocketSameAsSocket
  deriving DecidableEq, Repr

/-- The body of the validation loop. -/
def validateWindow (ruleIndex : ℕ) (window : Window) : Except ConfigError Unit :=
  if window.duration.subsecNanos ≠ 0 ∨ window.duration < minWindowDuration then
    throw (.windowTooShort ruleIndex window.duration)
  else if maxWindowDuration < window.duration then
    throw (.windowTooLong ruleIndex window.duration)
  else pure ()

def validateWindows (ruleIndex : ℕ) (windows : List Window) : Except ConfigError Unit :=
  if windows.isEmpty then throw (.noWindows ruleIndex)
  else forM windows (validateWindow ruleIndex)

/-- What validation guarantees of a window. -/
structure Window.Valid (w : Window) : Prop where
  whole : w.duration.subsecNanos = 0
  atLeast : 60 ≤ w.duration.secs
  atMost : w.duration.secs ≤ 2678400

theorem validateWindow_ok_iff (ruleIndex : ℕ) (w : Window) :
    validateWindow ruleIndex w = .ok () ↔ w.Valid := by
  have hmin : w.duration < minWindowDuration ↔ w.duration.secs < 60 := by
    simp [Duration.lt_iff, minWindowDuration, Duration.fromSecs]
  have hmax : maxWindowDuration < w.duration ↔
      2678400 < w.duration.secs ∨ (2678400 = w.duration.secs ∧ 0 < w.duration.subsecNanos) := by
    simp [Duration.lt_iff, maxWindowDuration, Duration.fromSecs]
  simp only [validateWindow, hmin, hmax]
  constructor
  · intro h
    split_ifs at h with h1 h2
    exact ⟨by omega, by omega, by omega⟩
  · intro h
    have := h.whole
    have := h.atLeast
    have := h.atMost
    rw [if_neg (by omega), if_neg (by omega)]
    rfl

theorem forM_ok_iff {ε α : Type*} (f : α → Except ε Unit) (xs : List α) :
    forM xs f = .ok () ↔ ∀ x ∈ xs, f x = .ok () := by
  induction xs with
  | nil => simp [pure, Except.pure]
  | cons x xs ih =>
    rw [List.forM_cons, List.forall_mem_cons, ← ih]
    cases hx : f x <;> simp [bind, Except.bind]

theorem validateWindows_ok_iff (ruleIndex : ℕ) (windows : List Window) :
    validateWindows ruleIndex windows = .ok () ↔
      windows ≠ [] ∧ ∀ w ∈ windows, w.Valid := by
  simp only [validateWindows, List.isEmpty_iff]
  split_ifs with h
  · simp [h]
  · rw [forM_ok_iff]
    simp only [validateWindow_ok_iff, ne_eq, h, not_false_eq_true, true_and]

/-- The doubling loop: `secs` grows while the next size stays within the cap and the
duration still spans enough buckets of it. -/
def bucketSizeLoop (durationSecs secs : ℕ) : ℕ :=
  if _h : secs * 2 ≤ maxBucketSize.secs ∧ bucketTargetCount ≤ durationSecs / (secs * 2) then
    bucketSizeLoop durationSecs (secs * 2)
  else secs
termination_by maxBucketSize.secs - secs
decreasing_by
  have hpos : 0 < secs := by
    rcases Nat.eq_zero_or_pos secs with h0 | h0
    · simp [h0, bucketTargetCount] at _h
    · exact h0
  omega

/-- Selects the bucket size to aggregate a window's messages into. -/
def bucketSize (duration : Duration) : Duration :=
  .fromSecs (bucketSizeLoop duration.secs minBucketSize.secs)

theorem bucketSizeLoop_pos {d secs : ℕ} (h : 0 < secs) : 0 < bucketSizeLoop d secs := by
  induction secs using bucketSizeLoop.induct d with
  | case1 secs hgrow ih =>
    rw [bucketSizeLoop, dif_pos hgrow]
    exact ih (by omega)
  | case2 secs hstop =>
    rw [bucketSizeLoop, dif_neg hstop]
    exact h

/-- The loop leaves a size within the cap that fits `bucketTargetCount` times, if it
was entered with one. -/
theorem bucketSizeLoop_bounds {d secs : ℕ} (hcap : secs ≤ maxBucketSize.secs)
    (hfit : bucketTargetCount * secs ≤ d) :
    bucketSizeLoop d secs ≤ maxBucketSize.secs ∧
      bucketTargetCount * bucketSizeLoop d secs ≤ d := by
  induction secs using bucketSizeLoop.induct d with
  | case1 secs hgrow ih =>
    rw [bucketSizeLoop, dif_pos hgrow]
    exact ih hgrow.1 (Nat.mul_le_of_le_div _ _ _ hgrow.2)
  | case2 secs hstop =>
    rw [bucketSizeLoop, dif_neg hstop]
    exact ⟨hcap, hfit⟩

/-- Short of the cap the loop goes on until a hundred buckets span more than the duration. -/
theorem bucketSizeLoop_covers {d : ℕ} (secs : ℕ) (hshort : d < 50 * (maxBucketSize.secs + 1)) :
    d < 100 * bucketSizeLoop d secs ∨ secs = 0 := by
  induction secs using bucketSizeLoop.induct d with
  | case1 secs hgrow ih =>
    rw [bucketSizeLoop, dif_pos hgrow]
    omega
  | case2 secs hstop =>
    rw [bucketSizeLoop, dif_neg hstop]
    by_cases hzero : secs = 0
    · exact .inr hzero
    · left
      by_cases hcap : secs * 2 ≤ maxBucketSize.secs
      · have hfew : d / (secs * 2) < bucketTargetCount := by
          by_contra hmany
          exact hstop ⟨hcap, not_lt.mp hmany⟩
        have hlt := (Nat.div_lt_iff_lt_mul (by omega)).mp hfew
        unfold bucketTargetCount at hlt
        omega
      · omega

/-- The loop only ever doubles. -/
theorem dvd_bucketSizeLoop (d secs : ℕ) : secs ∣ bucketSizeLoop d secs := by
  induction secs using bucketSizeLoop.induct d with
  | case1 secs hgrow ih =>
    rw [bucketSizeLoop, dif_pos hgrow]
    exact (Nat.dvd_mul_right secs 2).trans ih
  | case2 secs hstop =>
    rw [bucketSizeLoop, dif_neg hstop]

/-- A longer duration doubles wherever a shorter one does, and may go on. -/
theorem bucketSizeLoop_dvd {d d' secs : ℕ} (h : d ≤ d') :
    bucketSizeLoop d secs ∣ bucketSizeLoop d' secs := by
  induction secs using bucketSizeLoop.induct d with
  | case1 secs hgrow ih =>
    have hgrow' : secs * 2 ≤ maxBucketSize.secs ∧ bucketTargetCount ≤ d' / (secs * 2) :=
      ⟨hgrow.1, hgrow.2.trans (Nat.div_le_div_right h)⟩
    have hstep : bucketSizeLoop d' secs = bucketSizeLoop d' (secs * 2) := by
      rw [bucketSizeLoop, dif_pos hgrow']
    rw [hstep, bucketSizeLoop, dif_pos hgrow]
    exact ih
  | case2 secs hstop =>
    rw [bucketSizeLoop, dif_neg hstop]
    exact dvd_bucketSizeLoop d' secs

theorem bucketSize_pos (d : Duration) : 0 < (bucketSize d).secs :=
  bucketSizeLoop_pos (by decide)

/-- A window spans at least fifty of its buckets. -/
theorem bucketSize_fits {w : Window} (h : w.Valid) :
    50 * (bucketSize w.duration).secs ≤ w.duration.secs := by
  have hfit : bucketTargetCount * minBucketSize.secs ≤ w.duration.secs := by
    have := h.atLeast
    simp only [bucketTargetCount, minBucketSize, Duration.fromSecs_secs]
    omega
  exact (bucketSizeLoop_bounds (by decide) hfit).2

theorem bucketSize_le_max {w : Window} (h : w.Valid) :
    (bucketSize w.duration).secs ≤ 53568 := by
  have := bucketSize_fits h
  have := h.atMost
  omega

/-- A valid window spans less than a hundred of its buckets: it never meets the cap. -/
theorem bucketSize_covers {w : Window} (h : w.Valid) :
    w.duration.secs < 100 * (bucketSize w.duration).secs := by
  have hshort : w.duration.secs < 50 * (maxBucketSize.secs + 1) := by
    have := h.atMost
    simp only [maxBucketSize, Duration.fromSecs_secs]
    omega
  have hcovers := bucketSizeLoop_covers minBucketSize.secs hshort
  exact hcovers.resolve_right (by decide)

/-- The buckets of a shorter duration divide those of a longer one. -/
theorem bucketSize_dvd {d d' : Duration} (h : d.secs ≤ d'.secs) :
    (bucketSize d).secs ∣ (bucketSize d').secs := bucketSizeLoop_dvd h

end PostfixRatelimitd
