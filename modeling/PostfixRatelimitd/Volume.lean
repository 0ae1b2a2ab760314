import Mathlib.Algebra.Order.BigOperators.Group.List
import Mathlib.Algebra.Order.Group.Unbundled.Basic
import Mathlib.Tactic.Linarith

/-!
# Weighted volume of a selection, and the sliding-window law

`volume weight pick log` is the total weight of the entries of `log` that `pick`
selects. A log is kept newest first. `Guarded` says that every entry, when it was
added, fitted under a limit together with the entries not older than a span before
it; `volume_window_le` turns this into a bound on every closed interval of that
span, wherever the interval lies.
-/
namespace PostfixRatelimitd

section Monoid
variable {E M : Type*} [AddCommMonoid M]

/-- Total weight of the selected entries, each occurrence counted once. -/
def volume (weight : E → M) (pick : E → Bool) (log : List E) : M :=
  ((log.filter pick).map weight).sum

@[simp] theorem volume_nil (weight : E → M) (pick : E → Bool) :
    volume weight pick [] = 0 := rfl

theorem volume_cons (weight : E → M) (pick : E → Bool) (e : E) (log : List E) :
    volume weight pick (e :: log) =
      (if pick e then weight e else 0) + volume weight pick log := by
  cases h : pick e <;> simp [volume, h]

theorem volume_congr {weight : E → M} {p q : E → Bool} {log : List E}
    (h : ∀ e ∈ log, p e = q e) : volume weight p log = volume weight q log := by
  simp only [volume, List.filter_congr h]

theorem volume_eq_zero {weight : E → M} {pick : E → Bool} {log : List E}
    (h : ∀ e ∈ log, pick e = false) : volume weight pick log = 0 := by
  rw [volume_congr h]
  simp [volume]

theorem volume_filter (weight : E → M) (pick keep : E → Bool) (log : List E) :
    volume weight pick (log.filter keep) = volume weight (fun e => keep e && pick e) log := by
  simp only [volume, List.filter_filter, Bool.and_comm]

theorem volume_map {F : Type*} (weight : E → M) (pick : E → Bool) (f : F → E) (log : List F) :
    volume weight pick (log.map f) = volume (fun x => weight (f x)) (fun x => pick (f x)) log := by
  simp [volume, List.filter_map, Function.comp_def]

theorem volume_perm {weight : E → M} {pick : E → Bool} {xs ys : List E} (h : xs.Perm ys) :
    volume weight pick xs = volume weight pick ys :=
  ((h.filter pick).map weight).sum_eq

end Monoid

section Ordered
variable {E M : Type*} [AddCommMonoid M] [PartialOrder M] [IsOrderedAddMonoid M]

theorem volume_nonneg {weight : E → M} {pick : E → Bool} {log : List E}
    (h : ∀ e ∈ log, 0 ≤ weight e) : 0 ≤ volume weight pick log := by
  induction log with
  | nil => simp
  | cons e log ih =>
    have hlog := ih (fun x hx => h x (List.mem_cons_of_mem _ hx))
    have he : 0 ≤ (if pick e then weight e else 0) := by
      split
      · exact h e List.mem_cons_self
      · exact le_rfl
    rw [volume_cons]
    exact add_nonneg he hlog

theorem weight_le_volume {weight : E → M} {pick : E → Bool} {log : List E} {e : E}
    (hw : ∀ x ∈ log, 0 ≤ weight x) (he : e ∈ log) (hp : pick e) :
    weight e ≤ volume weight pick log := by
  induction log with
  | nil => simp at he
  | cons x log ih =>
    obtain ⟨hx, hlog⟩ := List.forall_mem_cons.mp hw
    rw [volume_cons]
    rcases List.mem_cons.mp he with rfl | he
    · rw [if_pos hp]
      exact le_add_of_nonneg_right (volume_nonneg hlog)
    · have hhead : 0 ≤ (if pick x then weight x else 0) := by
        split
        · exact hx
        · exact le_rfl
      exact (ih hlog he).trans (le_add_of_nonneg_left hhead)

/-- A wider selection of nonnegative weights weighs at least as much. -/
theorem volume_mono {weight : E → M} {p q : E → Bool} {log : List E}
    (hw : ∀ e ∈ log, 0 ≤ weight e) (h : ∀ e ∈ log, p e → q e) :
    volume weight p log ≤ volume weight q log := by
  induction log with
  | nil => simp
  | cons e log ih =>
    have hlog := ih (fun x hx => hw x (List.mem_cons_of_mem _ hx))
      (fun x hx => h x (List.mem_cons_of_mem _ hx))
    have he : (if p e then weight e else 0) ≤ (if q e then weight e else 0) := by
      by_cases hp : p e
      · simp [hp, h e List.mem_cons_self hp]
      · rw [if_neg hp]
        split
        · exact hw e List.mem_cons_self
        · exact le_rfl
    rw [volume_cons, volume_cons]
    exact add_le_add he hlog

theorem volume_sublist {weight : E → M} {pick : E → Bool} {xs ys : List E}
    (hw : ∀ e ∈ ys, 0 ≤ weight e) (h : xs.Sublist ys) :
    volume weight pick xs ≤ volume weight pick ys := by
  apply List.Sublist.sum_le_sum ((h.filter pick).map weight)
  intro x hx
  obtain ⟨e, he, rfl⟩ := List.mem_map.mp hx
  exact hw e (List.mem_filter.mp he).1

end Ordered

/-- Newest first: each entry fits under `limit` with the entries before it that are
at most `span` older. -/
def Guarded {E M τ : Type*} [AddCommMonoid M] [LE M] [Sub τ] [LinearOrder τ] (time : E → τ)
    (weight : E → M) (span : τ) (limit : M) : List E → Prop
  | [] => True
  | e :: older =>
    weight e + volume weight (fun x => decide (time e - span ≤ time x)) older ≤ limit ∧
      Guarded time weight span limit older

section Window
variable {E M τ : Type*} [AddCommMonoid M] [PartialOrder M] [IsOrderedAddMonoid M]
variable [AddCommGroup τ] [LinearOrder τ] [IsOrderedAddMonoid τ]

/-- No closed interval of length `span` carries more than `limit`: the newest entry
inside it was checked against all others inside it. -/
theorem volume_window_le {time : E → τ} {weight : E → M} {span : τ} {limit : M}
    {log : List E} (hlimit : 0 ≤ limit) (hw : ∀ e ∈ log, 0 ≤ weight e)
    (hsorted : log.Pairwise (fun newer older => time older ≤ time newer))
    (hg : Guarded time weight span limit log) (a : τ) :
    volume weight (fun e => decide (a ≤ time e ∧ time e ≤ a + span)) log ≤ limit := by
  induction log with
  | nil => simpa using hlimit
  | cons e older ih =>
    obtain ⟨hhead, htail⟩ := List.pairwise_cons.mp hsorted
    obtain ⟨hfit, hg'⟩ := hg
    have hw' : ∀ x ∈ older, 0 ≤ weight x := fun x hx => hw x (List.mem_cons_of_mem _ hx)
    rw [volume_cons]
    by_cases he : a ≤ time e ∧ time e ≤ a + span
    · have hsub : volume weight (fun x => decide (a ≤ time x ∧ time x ≤ a + span)) older ≤
          volume weight (fun x => decide (time e - span ≤ time x)) older := by
        apply volume_mono hw'
        intro x _ hx
        simp only [decide_eq_true_eq] at hx ⊢
        exact (sub_le_iff_le_add.mpr he.2).trans hx.1
      simp only [he, and_self, decide_true, if_true]
      exact (add_le_add le_rfl hsub).trans hfit
    · simp only [he, decide_false, Bool.false_eq_true, if_false, zero_add]
      exact ih hw' htail hg'

end Window

end PostfixRatelimitd
