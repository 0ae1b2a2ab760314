import PostfixRatelimitd.Windows
import Mathlib.Order.Bounds.Basic

/-!
# The bucket size of any duration

The sizes the loop can leave are the powers of two up to the cap. Of these it leaves the
greatest that still fits fifty times into the duration, or one second if none does. So a
longer duration never gets a smaller bucket, and of any two bucket sizes one divides the
other. The code runs the loop on machine integers, which it never takes out of their range.
-/
namespace PostfixRatelimitd

/-! ## The loop on machine integers -/

/-- A product in `u64`, if it does not overflow. -/
def checkedMul (a b : UInt64) : Option UInt64 :=
  if a.toNat * b.toNat < 2 ^ 64 then some (a * b) else none

/-- A quotient in `u64`, if the divisor is not zero. -/
def checkedDiv (a b : UInt64) : Option UInt64 := if b = 0 then none else some (a / b)

/-- The condition of the loop. -/
def growsU64 (durationSecs secs : UInt64) : Option Bool := do
  if (← checkedMul secs 2) ≤ UInt64.ofNat maxBucketSize.secs then
    let buckets ← checkedDiv durationSecs (← checkedMul secs 2)
    pure (decide (UInt64.ofNat bucketTargetCount ≤ buckets))
  else pure false

/-- The loop, for as many tests of its condition as there is fuel. -/
def bucketSizeLoopU64 (durationSecs : UInt64) : ℕ → UInt64 → Option UInt64
  | 0, _ => none
  | fuel + 1, secs => do
    if ← growsU64 durationSecs secs then
      bucketSizeLoopU64 durationSecs fuel (← checkedMul secs 2)
    else pure secs

def bucketSizeU64 (durationSecs : UInt64) (fuel : ℕ) : Option UInt64 :=
  bucketSizeLoopU64 durationSecs fuel (UInt64.ofNat minBucketSize.secs)

theorem checkedMul_two {secs : UInt64} (h : secs.toNat ≤ maxBucketSize.secs) :
    checkedMul secs 2 = some (secs * 2) ∧ (secs * 2).toNat = secs.toNat * 2 := by
  have hmax : maxBucketSize.secs = 86400 := rfl
  have hsmall : secs.toNat * (2 : UInt64).toNat < 2 ^ 64 := by
    show secs.toNat * 2 < 2 ^ 64
    omega
  refine ⟨if_pos hsmall, ?_⟩
  rw [UInt64.toNat_mul]
  exact Nat.mod_eq_of_lt hsmall

/-- Within the cap the condition neither overflows nor divides by zero. -/
theorem growsU64_eq {secs : UInt64} (d : UInt64) (hpos : 0 < secs.toNat)
    (hcap : secs.toNat ≤ maxBucketSize.secs) :
    growsU64 d secs = some (decide (secs.toNat * 2 ≤ maxBucketSize.secs ∧
      bucketTargetCount ≤ d.toNat / (secs.toNat * 2))) := by
  obtain ⟨hmul, hdouble⟩ := checkedMul_two hcap
  have hne : secs * 2 ≠ 0 := by
    intro hzero
    have hnone : (secs * 2).toNat = 0 := by rw [hzero]; rfl
    omega
  have hdiv : checkedDiv d (secs * 2) = some (d / (secs * 2)) := if_neg hne
  have hle : secs * 2 ≤ UInt64.ofNat maxBucketSize.secs ↔
      secs.toNat * 2 ≤ maxBucketSize.secs := by
    rw [UInt64.le_iff_toNat_le, hdouble]
    rfl
  have hmany : UInt64.ofNat bucketTargetCount ≤ d / (secs * 2) ↔
      bucketTargetCount ≤ d.toNat / (secs.toNat * 2) := by
    rw [UInt64.le_iff_toNat_le, UInt64.toNat_div, hdouble]
    rfl
  unfold growsU64
  simp only [hmul, hdiv, Option.bind_eq_bind, Option.bind_some, hle, hmany, Option.pure_def]
  split_ifs with hcond
  · simp [hcond]
  · simp [hcond]

/-- With fuel to double past the cap the loop ends, and with what it leaves in the naturals. -/
theorem bucketSizeLoopU64_eq (d : UInt64) {fuel : ℕ} {secs : UInt64} (hpos : 0 < secs.toNat)
    (hcap : secs.toNat ≤ maxBucketSize.secs)
    (hfuel : maxBucketSize.secs < secs.toNat * 2 ^ fuel) :
    ∃ size, bucketSizeLoopU64 d fuel secs = some size ∧
      size.toNat = bucketSizeLoop d.toNat secs.toNat := by
  induction fuel generalizing secs with
  | zero =>
    rw [pow_zero, mul_one] at hfuel
    omega
  | succ fuel ih =>
    obtain ⟨hmul, hdouble⟩ := checkedMul_two hcap
    have hgrows := growsU64_eq d hpos hcap
    rw [bucketSizeLoopU64, hgrows, bucketSizeLoop]
    simp only [Option.bind_eq_bind, Option.bind_some, decide_eq_true_eq, hmul]
    split_ifs with hcond
    · rw [← hdouble]
      apply ih
      · omega
      · rw [hdouble]
        exact hcond.1
      · rw [hdouble, mul_assoc, ← pow_succ']
        exact hfuel
    · exact ⟨secs, rfl, rfl⟩

/-! ## What the loop leaves -/

/-- The bucket sizes to choose from: powers of two up to the cap that fit often enough, and
the smallest size in any case. -/
def bucketLadder (durationSecs : ℕ) : Set ℕ :=
  {n | (∃ k, n = 2 ^ k) ∧ n ≤ maxBucketSize.secs ∧
    (n = minBucketSize.secs ∨ bucketTargetCount * n ≤ durationSecs)}

theorem bucketLadder_mono {d d' : ℕ} (h : d ≤ d') : bucketLadder d ⊆ bucketLadder d' := by
  intro n hn
  obtain ⟨hpow, hcap, hfits⟩ := hn
  exact ⟨hpow, hcap, hfits.imp_right (fun hle => hle.trans h)⟩

/-- Between a power of two and its double there is no other. -/
theorem two_mul_le_of_lt {m n : ℕ} (hm : ∃ k, m = 2 ^ k) (hn : ∃ k, n = 2 ^ k) (h : m < n) :
    m * 2 ≤ n := by
  obtain ⟨j, rfl⟩ := hm
  obtain ⟨k, rfl⟩ := hn
  have hjk : j < k := (Nat.pow_lt_pow_iff_right (by decide)).mp h
  rw [← pow_succ]
  exact Nat.pow_le_pow_right (by decide) hjk

theorem doubled_mem {d secs : ℕ} (h : secs ∈ bucketLadder d)
    (hgrow : secs * 2 ≤ maxBucketSize.secs ∧ bucketTargetCount ≤ d / (secs * 2)) :
    secs * 2 ∈ bucketLadder d := by
  obtain ⟨k, rfl⟩ := h.1
  exact ⟨⟨k + 1, (pow_succ 2 k).symm⟩, hgrow.1, .inr (Nat.mul_le_of_le_div _ _ _ hgrow.2)⟩

/-- The loop stays on the ladder. -/
theorem bucketSizeLoop_mem {d secs : ℕ} (h : secs ∈ bucketLadder d) :
    bucketSizeLoop d secs ∈ bucketLadder d := by
  induction secs using bucketSizeLoop.induct d with
  | case1 secs hgrow ih =>
    rw [bucketSizeLoop, dif_pos hgrow]
    exact ih (doubled_mem h hgrow)
  | case2 secs hstop =>
    rw [bucketSizeLoop, dif_neg hstop]
    exact h

/-- No size on the ladder is above the one the loop stops at. -/
theorem bucketSizeLoop_upper {d secs n : ℕ} (h : secs ∈ bucketLadder d)
    (hn : n ∈ bucketLadder d) : n ≤ bucketSizeLoop d secs := by
  induction secs using bucketSizeLoop.induct d with
  | case1 secs hgrow ih =>
    rw [bucketSizeLoop, dif_pos hgrow]
    exact ih (doubled_mem h hgrow)
  | case2 secs hstop =>
    rw [bucketSizeLoop, dif_neg hstop]
    by_contra hlt
    obtain ⟨hpow, hcap, hfits⟩ := hn
    have hdouble := two_mul_le_of_lt h.1 hpow (not_le.mp hlt)
    have hpos : 0 < secs := by
      obtain ⟨j, rfl⟩ := h.1
      exact Nat.two_pow_pos j
    have hmany : bucketTargetCount * n ≤ d := by
      refine hfits.resolve_left ?_
      intro hmin
      have hone : minBucketSize.secs = 1 := rfl
      omega
    refine hstop ⟨hdouble.trans hcap, ?_⟩
    rw [Nat.le_div_iff_mul_le (by omega)]
    exact (Nat.mul_le_mul_left _ hdouble).trans hmany

theorem min_mem_bucketLadder (d : ℕ) : minBucketSize.secs ∈ bucketLadder d :=
  ⟨⟨0, rfl⟩, by decide, .inl rfl⟩

/-- The bucket size is the greatest on the ladder. -/
theorem isGreatest_bucketSize (d : Duration) :
    IsGreatest (bucketLadder d.secs) (bucketSize d).secs :=
  ⟨bucketSizeLoop_mem (min_mem_bucketLadder d.secs),
    fun _ hn => bucketSizeLoop_upper (min_mem_bucketLadder d.secs) hn⟩

theorem bucketSize_mono {d d' : Duration} (h : d.secs ≤ d'.secs) :
    (bucketSize d).secs ≤ (bucketSize d').secs :=
  (isGreatest_bucketSize d).mono (isGreatest_bucketSize d') (bucketLadder_mono h)

/-- Where no further doubling stays within the cap, a hundred buckets may span less than the
duration; elsewhere they span more. -/
theorem bucketSize_covers_or_max (d : Duration) :
    d.secs < 100 * (bucketSize d).secs ∨ maxBucketSize.secs < 2 * (bucketSize d).secs := by
  obtain ⟨⟨hpow, _, _⟩, hupper⟩ := isGreatest_bucketSize d
  by_contra hnot
  obtain ⟨hlong, hcap⟩ := not_or.mp hnot
  have htarget : bucketTargetCount = 50 := rfl
  obtain ⟨k, hk⟩ := hpow
  have hmem : 2 ^ (k + 1) ∈ bucketLadder d.secs := by
    refine ⟨⟨k + 1, rfl⟩, ?_, .inr ?_⟩
    · rw [pow_succ, ← hk]
      omega
    · rw [pow_succ, ← hk, htarget]
      omega
  have hle := hupper hmem
  have hpos := bucketSize_pos d
  rw [pow_succ, ← hk] at hle
  omega

/-- The bucket size of any duration: the code's loop arrives at it after at most seventeen
tests, it is the greatest power of two that is within the cap and fits fifty times, it
grows with the duration, and any two bucket sizes are nested. -/
theorem bucketSize_contract (d : Duration) :
    (∀ durationSecs : UInt64, durationSecs.toNat = d.secs → ∀ fuel, 17 ≤ fuel →
      ∃ size, bucketSizeU64 durationSecs fuel = some size ∧ size.toNat = (bucketSize d).secs) ∧
    (∃ k, (bucketSize d).secs = 2 ^ k) ∧ (bucketSize d).secs ≤ 86400 ∧
    (50 ≤ d.secs → IsGreatest {n | (∃ k, n = 2 ^ k) ∧ n ≤ 86400 ∧ 50 * n ≤ d.secs}
      (bucketSize d).secs) ∧
    (d.secs < 100 * (bucketSize d).secs ∨ 86400 < 2 * (bucketSize d).secs) ∧
    ∀ d' : Duration, (d.secs ≤ d'.secs → (bucketSize d).secs ≤ (bucketSize d').secs) ∧
      min (bucketSize d).secs (bucketSize d').secs ∣
        max (bucketSize d).secs (bucketSize d').secs := by
  have hgreatest := isGreatest_bucketSize d
  refine ⟨?_, hgreatest.1.1, hgreatest.1.2.1, ?_, bucketSize_covers_or_max d, ?_⟩
  · intro durationSecs hsecs fuel hfuel
    have hstart : (UInt64.ofNat minBucketSize.secs).toNat = minBucketSize.secs := rfl
    have hpast : maxBucketSize.secs < (UInt64.ofNat minBucketSize.secs).toNat * 2 ^ fuel := by
      have hmore : 2 ^ 17 ≤ 2 ^ fuel := Nat.pow_le_pow_right (by decide) hfuel
      have hmax : maxBucketSize.secs < 2 ^ 17 := by decide
      have hone : minBucketSize.secs = 1 := rfl
      rw [hstart, hone, one_mul]
      omega
    obtain ⟨size, hsize, heq⟩ := bucketSizeLoopU64_eq durationSecs (by decide) (by decide) hpast
    exact ⟨size, hsize, by rw [heq, hsecs, hstart]; rfl⟩
  · intro hlong
    have hfits : ∀ n, n ∈ bucketLadder d.secs → 50 * n ≤ d.secs := by
      intro n hn
      rcases hn.2.2 with rfl | hfits
      · exact hlong
      · exact hfits
    refine ⟨⟨hgreatest.1.1, hgreatest.1.2.1, hfits _ hgreatest.1⟩, ?_⟩
    intro n hn
    exact hgreatest.2 ⟨hn.1, hn.2.1, .inr hn.2.2⟩
  · intro d'
    refine ⟨bucketSize_mono, ?_⟩
    rcases le_total d.secs d'.secs with hle | hle
    · rw [min_eq_left (bucketSize_mono hle), max_eq_right (bucketSize_mono hle)]
      exact bucketSize_dvd hle
    · rw [min_eq_right (bucketSize_mono hle), max_eq_left (bucketSize_mono hle)]
      exact bucketSize_dvd hle

theorem bucketSize_contract_hour :
    (∃ size, bucketSizeU64 3600 17 = some size ∧ size.toNat = (bucketSize (.fromSecs 3600)).secs) ∧
      IsGreatest {n | (∃ k, n = 2 ^ k) ∧ n ≤ 86400 ∧ 50 * n ≤ (Duration.fromSecs 3600).secs}
        (bucketSize (.fromSecs 3600)).secs := by
  obtain ⟨hloop, _, _, hgreatest, _⟩ := bucketSize_contract (.fromSecs 3600)
  exact ⟨hloop 3600 rfl 17 le_rfl, hgreatest (by decide)⟩

end PostfixRatelimitd
