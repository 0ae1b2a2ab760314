import PostfixRatelimitd.Volume

/-!
# Tables of running totals

A `Tally` holds at most one total for each index. `add` grows one entry in place or
appends it, `erase` removes a list of indices. `sumOver` is the total of the entries
whose index is selected; the lemmas say how the two updates change every such sum.
-/
namespace PostfixRatelimitd

variable {ι M : Type*}

/-- Grow the entry at `i`, or append one. -/
def addEntry [DecidableEq ι] [Add M] (i : ι) (m : M) : List (ι × M) → List (ι × M)
  | [] => [(i, m)]
  | (j, n) :: rest => if j = i then (j, n + m) :: rest else (j, n) :: addEntry i m rest

theorem addEntry_indices [DecidableEq ι] [Add M] (i : ι) (m : M) (entries : List (ι × M)) :
    (addEntry i m entries).map Prod.fst =
      if i ∈ entries.map Prod.fst then entries.map Prod.fst else entries.map Prod.fst ++ [i] := by
  induction entries with
  | nil => simp [addEntry]
  | cons entry rest ih =>
    obtain ⟨j, n⟩ := entry
    by_cases hj : j = i
    · simp [addEntry, hj]
    · have hji : i ≠ j := Ne.symm hj
      simp only [addEntry, if_neg hj, List.map_cons, ih, List.mem_cons, hji, false_or]
      split <;> simp

/-- At most one total for each index. -/
structure Tally (ι M : Type*) where
  entries : List (ι × M)
  nodup : (entries.map Prod.fst).Nodup

namespace Tally

@[ext] theorem ext {s t : Tally ι M} (h : s.entries = t.entries) : s = t := by
  cases s; cases t; congr

def empty : Tally ι M := ⟨[], List.nodup_nil⟩

@[simp] theorem empty_entries : (empty : Tally ι M).entries = [] := rfl

section Updates
variable [DecidableEq ι]

/-- The total at `i`, when there is one. -/
def find? (t : Tally ι M) (i : ι) : Option M :=
  (t.entries.find? (fun entry => decide (entry.1 = i))).map Prod.snd

def add [Add M] (t : Tally ι M) (i : ι) (m : M) : Tally ι M where
  entries := addEntry i m t.entries
  nodup := by
    rw [addEntry_indices]
    split
    · exact t.nodup
    · rename_i h
      exact List.nodup_append.mpr ⟨t.nodup, by simp, by
        intro a ha b hb hab
        rw [List.mem_singleton] at hb
        exact h (hb ▸ hab ▸ ha)⟩

def erase (t : Tally ι M) (gone : List ι) : Tally ι M where
  entries := t.entries.filter (fun entry => decide (entry.1 ∉ gone))
  nodup := t.nodup.sublist (List.filter_sublist.map Prod.fst)

@[simp] theorem erase_nil (t : Tally ι M) : t.erase [] = t := by
  ext1
  simp [erase]

end Updates

/-- Sum of the totals at the selected indices. -/
def sumOver [AddCommMonoid M] (pick : ι → Bool) (t : Tally ι M) : M :=
  volume Prod.snd (fun entry => pick entry.1) t.entries

section Sums
variable [AddCommMonoid M]

@[simp] theorem sumOver_empty (pick : ι → Bool) : sumOver pick (empty : Tally ι M) = 0 := rfl

theorem volume_addEntry [DecidableEq ι] (pick : ι → Bool) (i : ι) (m : M) (entries : List (ι × M)) :
    volume Prod.snd (fun entry => pick entry.1) (addEntry i m entries) =
      volume Prod.snd (fun entry => pick entry.1) entries + if pick i then m else 0 := by
  induction entries with
  | nil => simp [addEntry, volume_cons]
  | cons entry rest ih =>
    obtain ⟨j, n⟩ := entry
    by_cases hj : j = i
    · subst j
      simp only [addEntry, if_true, volume_cons]
      split
      · exact add_right_comm n m _
      · simp
    · simp only [addEntry, if_neg hj, volume_cons, ih, add_assoc]

theorem sumOver_add [DecidableEq ι] (pick : ι → Bool) (t : Tally ι M) (i : ι) (m : M) :
    sumOver pick (t.add i m) = sumOver pick t + if pick i then m else 0 :=
  volume_addEntry pick i m t.entries

theorem sumOver_erase [DecidableEq ι] (pick : ι → Bool) (t : Tally ι M) (gone : List ι) :
    sumOver pick (t.erase gone) = sumOver (fun i => decide (i ∉ gone) && pick i) t := by
  simp only [sumOver, erase, volume_filter]

theorem sum_counts (t : Tally ι M) : (t.entries.map Prod.snd).sum = sumOver (fun _ => true) t := by
  unfold sumOver volume
  rw [List.filter_true]

theorem sumOver_congr {p q : ι → Bool} {t : Tally ι M}
    (h : ∀ entry ∈ t.entries, p entry.1 = q entry.1) : sumOver p t = sumOver q t :=
  volume_congr h

variable [PartialOrder M] [IsOrderedAddMonoid M]

theorem sumOver_mono {p q : ι → Bool} {t : Tally ι M} (hpos : ∀ entry ∈ t.entries, 0 ≤ entry.2)
    (h : ∀ i, p i → q i) : sumOver p t ≤ sumOver q t :=
  volume_mono hpos (fun entry _ => h entry.1)

theorem le_sumOver {t : Tally ι M} (hpos : ∀ entry ∈ t.entries, 0 ≤ entry.2) :
    ∀ entry ∈ t.entries, entry.2 ≤ sumOver (fun _ => true) t := by
  intro entry hentry
  exact weight_le_volume hpos hentry rfl

/-- A single total, zero where there is none, lies between zero and the sum of all. -/
theorem find?_getD_bounds [DecidableEq ι] {t : Tally ι M} (hpos : ∀ entry ∈ t.entries, 0 ≤ entry.2)
    (i : ι) : 0 ≤ (t.find? i).getD 0 ∧ (t.find? i).getD 0 ≤ sumOver (fun _ => true) t := by
  unfold find?
  cases h : t.entries.find? (fun entry => decide (entry.1 = i)) with
  | none => exact ⟨le_rfl, volume_nonneg hpos⟩
  | some entry =>
    have hmem : entry ∈ t.entries := List.mem_of_find?_eq_some h
    exact ⟨hpos entry hmem, le_sumOver hpos entry hmem⟩

end Sums

section Find
variable [DecidableEq ι]

theorem find?_eq_none {t : Tally ι M} {i : ι} (h : i ∉ t.entries.map Prod.fst) :
    t.find? i = none := by
  unfold find?
  rw [Option.map_eq_none_iff, List.find?_eq_none]
  intro entry hentry hi
  exact h (of_decide_eq_true hi ▸ List.mem_map_of_mem hentry)

theorem find?_addEntry [AddZeroClass M] (i j : ι) (m : M) (entries : List (ι × M)) :
    ((addEntry i m entries).find? (fun entry => decide (entry.1 = j))).map Prod.snd =
      if j = i then
        some (((entries.find? (fun entry => decide (entry.1 = i))).map Prod.snd).getD 0 + m)
      else (entries.find? (fun entry => decide (entry.1 = j))).map Prod.snd := by
  induction entries with
  | nil =>
    by_cases hji : j = i
    · simp [addEntry, hji]
    · have hij : i ≠ j := Ne.symm hji
      simp [addEntry, hji, hij]
  | cons entry rest ih =>
    obtain ⟨k, n⟩ := entry
    by_cases hki : k = i
    · subst k
      by_cases hji : j = i
      · simp [addEntry, hji]
      · have hij : i ≠ j := Ne.symm hji
        simp [addEntry, hji, hij]
    · by_cases hkj : k = j
      · subst k
        simp [addEntry, hki]
      · rw [addEntry, if_neg hki]
        simp only [List.find?_cons, hkj, hki, decide_false, ih]

/-- Growing an entry changes no other, and a missing one is grown from zero. -/
theorem find?_add [AddZeroClass M] (t : Tally ι M) (i j : ι) (m : M) :
    (t.add i m).find? j = if j = i then some ((t.find? i).getD 0 + m) else t.find? j :=
  find?_addEntry i j m t.entries

theorem find?_erase (t : Tally ι M) (gone : List ι) (i : ι) :
    (t.erase gone).find? i = if i ∈ gone then none else t.find? i := by
  unfold find? erase
  rw [List.find?_filter]
  split_ifs with hi
  · rw [Option.map_eq_none_iff, List.find?_eq_none]
    intro entry _ hpick
    have hboth : entry.1 ∉ gone ∧ entry.1 = i := by simpa using hpick
    exact hboth.1 (hboth.2 ▸ hi)
  · congr 2
    funext entry
    by_cases hsame : entry.1 = i
    · simp [hsame, hi]
    · simp [hsame]

end Find

/-- A property of single entries survives growing one of them when it does so there. -/
theorem forall_add [DecidableEq ι] [Add M] {P : ι → M → Prop} {t : Tally ι M} {i : ι} {m : M}
    (hold : ∀ entry ∈ t.entries, P entry.1 entry.2) (hnew : P i m)
    (hgrow : ∀ n, P i n → P i (n + m)) : ∀ entry ∈ (t.add i m).entries, P entry.1 entry.2 := by
  obtain ⟨entries, hnodup⟩ := t
  change ∀ entry ∈ entries, _ at hold
  show ∀ entry ∈ addEntry i m entries, _
  clear hnodup
  induction entries with
  | nil => simpa [addEntry] using hnew
  | cons head rest ih =>
    obtain ⟨j, n⟩ := head
    obtain ⟨hhead, hrest⟩ := List.forall_mem_cons.mp hold
    by_cases hj : j = i
    · subst j
      rw [addEntry, if_pos rfl, List.forall_mem_cons]
      exact ⟨hgrow n hhead, hrest⟩
    · rw [addEntry, if_neg hj, List.forall_mem_cons]
      exact ⟨hhead, ih hrest⟩

theorem forall_erase [DecidableEq ι] {P : ι → M → Prop} {t : Tally ι M} (gone : List ι)
    (hold : ∀ entry ∈ t.entries, P entry.1 entry.2) :
    ∀ entry ∈ (t.erase gone).entries, P entry.1 entry.2 :=
  fun entry h => hold entry (List.mem_of_mem_filter h)

end Tally
end PostfixRatelimitd
