import PostfixRatelimitd.Windows
import Mathlib.Data.List.Nodup
import Mathlib.Data.List.Induction

/-!
# The precomputed check plan

The planner walks a rule's windows once and keeps three lists in step: one bucket
size for each key, the longest span each key must retain, and one planned window for
each distinct span. `Planner.Represents` is the invariant of that walk.
-/
namespace PostfixRatelimitd

/-- A single window within a `CheckPlan`. `keyIndex` is 0-based. -/
structure PlannedWindow where
  keyIndex : ℕ
  spanSecs : ℕ
  limit : UInt32
  deriving DecidableEq, Repr

/-- The shape of one script invocation. Bucket sizes are divided by, so a plan with an
empty bucket cannot be built. -/
structure CheckPlan where
  bucketSizes : List ℕ
  windows : List PlannedWindow
  retentionSecs : List ℕ
  bucketSizes_pos : ∀ b ∈ bucketSizes, 0 < b
  deriving DecidableEq, Repr

/-- The three lists the planning loop mutates. -/
structure Planner where
  bucketSizes : List ℕ
  retentionSecs : List ℕ
  windows : List PlannedWindow
  deriving DecidableEq, Repr

/-- Of two windows with one span keep the smaller count; otherwise append. -/
def tightenOrPush (keyIndex spanSecs : ℕ) (count : UInt32) :
    List PlannedWindow → List PlannedWindow
  | [] => [⟨keyIndex, spanSecs, count⟩]
  | w :: rest =>
    if w.keyIndex = keyIndex ∧ w.spanSecs = spanSecs then
      { w with limit := min w.limit count } :: rest
    else w :: tightenOrPush keyIndex spanSecs count rest

section TightenOrPush
variable {keyIndex spanSecs : ℕ} {count : UInt32} {windows : List PlannedWindow}

theorem min_eq_or (a b : UInt32) : min a b = a ∨ min a b = b := by
  simp only [← UInt32.toNat_inj, UInt32.toNat_min]
  omega

/-- Nothing appears but the entry asked for. -/
theorem mem_tightenOrPush {p : PlannedWindow}
    (h : p ∈ tightenOrPush keyIndex spanSecs count windows) :
    p ∈ windows ∨ p = ⟨keyIndex, spanSecs, count⟩ := by
  induction windows with
  | nil => exact .inr (by simpa [tightenOrPush] using h)
  | cons w rest ih =>
    rw [tightenOrPush] at h
    split_ifs at h with hw
    · rcases List.mem_cons.mp h with rfl | h
      · rcases min_eq_or w.limit count with hm | hm
        · exact .inl (by simp [hm])
        · exact .inr (by simp [hm, hw])
      · exact .inl (List.mem_cons_of_mem _ h)
    · rcases List.mem_cons.mp h with rfl | h
      · exact .inl List.mem_cons_self
      · exact (ih h).imp_left (List.mem_cons_of_mem _)

/-- No window is loosened or lost. -/
theorem tightenOrPush_keeps (keyIndex spanSecs : ℕ) (count : UInt32) {p : PlannedWindow}
    (h : p ∈ windows) :
    ∃ q ∈ tightenOrPush keyIndex spanSecs count windows,
      q.keyIndex = p.keyIndex ∧ q.spanSecs = p.spanSecs ∧ q.limit.toNat ≤ p.limit.toNat := by
  induction windows with
  | nil => simp at h
  | cons w rest ih =>
    rw [tightenOrPush]
    split_ifs with hw
    · rcases List.mem_cons.mp h with rfl | h
      · exact ⟨_, List.mem_cons_self, rfl, rfl, by simp [UInt32.toNat_min]⟩
      · exact ⟨p, List.mem_cons_of_mem _ h, rfl, rfl, le_rfl⟩
    · rcases List.mem_cons.mp h with rfl | h
      · exact ⟨p, List.mem_cons_self, rfl, rfl, le_rfl⟩
      · obtain ⟨q, hq, hqp⟩ := ih h
        exact ⟨q, List.mem_cons_of_mem _ hq, hqp⟩

theorem tightenOrPush_adds (keyIndex spanSecs : ℕ) (count : UInt32)
    (windows : List PlannedWindow) :
    ∃ q ∈ tightenOrPush keyIndex spanSecs count windows,
      q.keyIndex = keyIndex ∧ q.spanSecs = spanSecs ∧ q.limit.toNat ≤ count.toNat := by
  induction windows with
  | nil => exact ⟨_, List.mem_singleton_self _, rfl, rfl, le_rfl⟩
  | cons w rest ih =>
    rw [tightenOrPush]
    split_ifs with hw
    · exact ⟨_, List.mem_cons_self, hw.1, hw.2, by simp [UInt32.toNat_min]⟩
    · obtain ⟨q, hq, hqp⟩ := ih
      exact ⟨q, List.mem_cons_of_mem _ hq, hqp⟩

theorem tightenOrPush_spans (h : ∀ p ∈ windows, p.spanSecs = spanSecs → p.keyIndex = keyIndex) :
    (tightenOrPush keyIndex spanSecs count windows).map PlannedWindow.spanSecs =
      if spanSecs ∈ windows.map PlannedWindow.spanSecs then windows.map PlannedWindow.spanSecs
      else windows.map PlannedWindow.spanSecs ++ [spanSecs] := by
  induction windows with
  | nil => simp [tightenOrPush]
  | cons w rest ih =>
    obtain ⟨hw, hrest⟩ := List.forall_mem_cons.mp h
    rw [tightenOrPush]
    by_cases hspan : w.spanSecs = spanSecs
    · rw [if_pos ⟨hw hspan, hspan⟩]
      simp [hspan]
    · have hne : spanSecs ≠ w.spanSecs := Ne.symm hspan
      rw [if_neg (fun h' => hspan h'.2), List.map_cons, ih hrest]
      simp only [List.map_cons, List.mem_cons, hne, false_or]
      split <;> simp

end TightenOrPush

namespace Planner

/-- Position of `size` among the keys, allocating a key that retains nothing yet. -/
def findOrAllocate (s : Planner) (size : ℕ) : Planner × ℕ :=
  match s.bucketSizes.findIdx? (fun existing => existing == size) with
  | some keyIndex => (s, keyIndex)
  | none =>
    ({ s with
        bucketSizes := s.bucketSizes ++ [size]
        retentionSecs := s.retentionSecs ++ [0] }, s.bucketSizes.length)

/-- One turn of the planning loop. -/
def addWindow (s : Planner) (window : Window) : Planner :=
  let (s, keyIndex) := s.findOrAllocate (bucketSize window.duration).secs
  let spanSecs := window.duration.secs
  { bucketSizes := s.bucketSizes
    retentionSecs := s.retentionSecs.modify keyIndex (fun kept => max kept spanSecs)
    windows := tightenOrPush keyIndex spanSecs window.count s.windows }

def start : Planner := ⟨[], [], []⟩

/-- What the three lists say about the windows seen so far. -/
structure Represents (s : Planner) (seen : List Window) : Prop where
  nodup : s.bucketSizes.Nodup
  parallel : s.retentionSecs.length = s.bucketSizes.length
  sizes : ∀ b ∈ s.bucketSizes, ∃ w ∈ seen, b = (bucketSize w.duration).secs
  indexed : ∀ p ∈ s.windows,
    s.bucketSizes[p.keyIndex]? = some (bucketSize (.fromSecs p.spanSecs)).secs
  retained : ∀ p ∈ s.windows, ∃ r, s.retentionSecs[p.keyIndex]? = some r ∧ p.spanSecs ≤ r
  longest : ∀ i r : ℕ, s.retentionSecs[i]? = some r →
    ∃ p ∈ s.windows, p.keyIndex = i ∧ p.spanSecs = r
  covered : ∀ w ∈ seen,
    ∃ p ∈ s.windows, p.spanSecs = w.duration.secs ∧ p.limit.toNat ≤ w.count.toNat
  origin : ∀ p ∈ s.windows, ∃ w ∈ seen, p.spanSecs = w.duration.secs ∧ p.limit = w.count
  distinct : (s.windows.map PlannedWindow.spanSecs).Nodup

theorem start_represents : start.Represents [] where
  nodup := List.nodup_nil
  parallel := rfl
  sizes := by simp [start]
  indexed := by simp [start]
  retained := by simp [start]
  longest := by simp [start]
  covered := by simp
  origin := by simp [start]
  distinct := List.nodup_nil

/-- What allocation leaves behind: the key is there, and every old position still
holds what it held. -/
structure Allocated (s s' : Planner) (size keyIndex : ℕ) : Prop where
  nodup : s'.bucketSizes.Nodup
  parallel : s'.retentionSecs.length = s'.bucketSizes.length
  windows : s'.windows = s.windows
  found : s'.bucketSizes[keyIndex]? = some size
  sizes : ∀ b ∈ s'.bucketSizes, b ∈ s.bucketSizes ∨ b = size
  keepSize : ∀ {i b : ℕ}, s.bucketSizes[i]? = some b → s'.bucketSizes[i]? = some b
  keepRetention : ∀ {i r : ℕ}, s.retentionSecs[i]? = some r → s'.retentionSecs[i]? = some r
  freshRetention : ∀ {i r : ℕ}, s'.retentionSecs[i]? = some r →
    s.retentionSecs[i]? = some r ∨ (i = keyIndex ∧ r = 0)

theorem findOrAllocate_spec {s : Planner} (hn : s.bucketSizes.Nodup)
    (hp : s.retentionSecs.length = s.bucketSizes.length) (size : ℕ) :
    Allocated s (s.findOrAllocate size).1 size (s.findOrAllocate size).2 := by
  unfold findOrAllocate
  cases hfind : s.bucketSizes.findIdx? (fun existing => existing == size) with
  | some i =>
    obtain ⟨hi, heq, _⟩ := List.findIdx?_eq_some_iff_getElem.mp hfind
    have hat : s.bucketSizes[i]? = some size := by
      rw [List.getElem?_eq_getElem hi]
      simpa using heq
    exact ⟨hn, hp, rfl, hat, fun b hb => .inl hb, id, id, .inl⟩
  | none =>
    have hnew : size ∉ s.bucketSizes := by
      intro hmem
      have := List.findIdx?_eq_none_iff.mp hfind size hmem
      simp at this
    refine ⟨?_, ?_, rfl, ?_, ?_, ?_, ?_, ?_⟩
    · exact List.nodup_append.mpr ⟨hn, by simp, by
        intro a ha b hb hab
        rw [List.mem_singleton] at hb
        exact hnew (hb ▸ hab ▸ ha)⟩
    · simp [hp]
    · simp
    · intro b hb
      simpa using hb
    · intro i b h
      obtain ⟨hi, _⟩ := List.getElem?_eq_some_iff.mp h
      rw [List.getElem?_append_left hi, h]
    · intro i r h
      obtain ⟨hi, _⟩ := List.getElem?_eq_some_iff.mp h
      rw [List.getElem?_append_left hi, h]
    · intro i r h
      by_cases hi : i < s.retentionSecs.length
      · rw [List.getElem?_append_left hi] at h
        exact .inl h
      · rw [List.getElem?_append_right (by omega)] at h
        obtain ⟨hlt, hr⟩ := List.getElem?_eq_some_iff.mp h
        simp only [List.length_singleton] at hlt
        exact .inr ⟨by simp only; omega, by simpa using hr.symm⟩

/-- Raising one retention lowers none. -/
theorem raised_retains (k span : ℕ) {retentionSecs : List ℕ} {i r : ℕ}
    (h : retentionSecs[i]? = some r) :
    ∃ r', (retentionSecs.modify k (fun kept => max kept span))[i]? = some r' ∧ r ≤ r' ∧
      (i = k → span ≤ r') := by
  rw [List.getElem?_modify, h]
  refine ⟨if k = i then max r span else r, rfl, ?_⟩
  split
  · exact ⟨le_max_left _ _, fun _ => le_max_right _ _⟩
  · rename_i hki
    exact ⟨le_rfl, fun hik => absurd hik.symm hki⟩

/-- A retention after raising is the new span, or one that was longer there before. -/
theorem raised_origin {retentionSecs : List ℕ} {k span i r : ℕ}
    (h : (retentionSecs.modify k (fun kept => max kept span))[i]? = some r) :
    (k = i ∧ r = span) ∨ (retentionSecs[i]? = some r ∧ (i = k → span < r)) := by
  rw [List.getElem?_modify] at h
  obtain ⟨kept, hkept, rfl⟩ := Option.map_eq_some_iff.mp h
  by_cases hik : k = i
  · rw [if_pos hik]
    rcases le_or_gt kept span with hle | hlt
    · exact .inl ⟨hik, max_eq_right hle⟩
    · rw [max_eq_left hlt.le]
      exact .inr ⟨hkept, fun _ => hlt⟩
  · rw [if_neg hik]
    exact .inr ⟨hkept, fun hki => absurd hki.symm hik⟩

theorem addWindow_represents {s : Planner} {seen : List Window} (hs : s.Represents seen)
    (w : Window) : (s.addWindow w).Represents (seen ++ [w]) := by
  have ha := findOrAllocate_spec hs.nodup hs.parallel (bucketSize w.duration).secs
  unfold addWindow
  generalize s.findOrAllocate (bucketSize w.duration).secs = alloc at ha
  obtain ⟨s', k⟩ := alloc
  obtain ⟨hn, hp, hwin, hfound, hsizes, hkeep, hkeepR, hfresh⟩ := ha
  simp only at hn hp hwin hfound hsizes hkeep hkeepR hfresh ⊢
  have hsame : ∀ p ∈ s'.windows, p.spanSecs = w.duration.secs → p.keyIndex = k := by
    intro p hpw hspan
    have hidx := hkeep (hs.indexed p (hwin ▸ hpw))
    rw [hspan] at hidx
    obtain ⟨hlt, _⟩ := List.getElem?_eq_some_iff.mp hidx
    exact (List.getElem?_inj hlt hn).mp (hidx.trans hfound.symm)
  constructor
  case nodup => exact hn
  case parallel => simpa using hp
  case sizes =>
    intro b hb
    rcases hsizes b hb with hb | rfl
    · obtain ⟨x, hx, rfl⟩ := hs.sizes b hb
      exact ⟨x, by simp [hx], rfl⟩
    · exact ⟨w, by simp, rfl⟩
  case indexed =>
    intro p hpw
    rcases mem_tightenOrPush hpw with hold | rfl
    · exact hkeep (hs.indexed p (hwin ▸ hold))
    · exact hfound
  case retained =>
    intro p hpw
    rcases mem_tightenOrPush hpw with hold | rfl
    · obtain ⟨r, hr, hle⟩ := hs.retained p (hwin ▸ hold)
      obtain ⟨r', hr', hle', _⟩ := raised_retains k w.duration.secs (hkeepR hr)
      exact ⟨r', hr', hle.trans hle'⟩
    · obtain ⟨r, hr⟩ : ∃ r, s'.retentionSecs[k]? = some r := by
        obtain ⟨hlt, _⟩ := List.getElem?_eq_some_iff.mp hfound
        exact ⟨_, List.getElem?_eq_getElem (by omega)⟩
      obtain ⟨r', hr', _, hspan⟩ := raised_retains k w.duration.secs hr
      exact ⟨r', hr', hspan rfl⟩
  case longest =>
    intro i r hr
    rcases raised_origin hr with ⟨rfl, rfl⟩ | ⟨hr, hreason⟩
    · obtain ⟨q, hq, hqk, hqs, _⟩ := tightenOrPush_adds k w.duration.secs w.count s'.windows
      exact ⟨q, hq, hqk, hqs⟩
    · rcases hfresh hr with hold | ⟨rfl, rfl⟩
      · obtain ⟨p, hpw, hpk, hps⟩ := hs.longest i r hold
        obtain ⟨q, hq, hqk, hqs, _⟩ := tightenOrPush_keeps k w.duration.secs w.count
          (hwin ▸ hpw)
        exact ⟨q, hq, hqk.trans hpk, hqs.trans hps⟩
      · exact absurd (hreason rfl) (Nat.not_lt_zero _)
  case covered =>
    intro x hx
    rcases List.mem_append.mp hx with hx | hx
    · obtain ⟨p, hpw, hps, hpl⟩ := hs.covered x hx
      obtain ⟨q, hq, _, hqs, hql⟩ := tightenOrPush_keeps k w.duration.secs w.count
        (hwin ▸ hpw)
      exact ⟨q, hq, hqs.trans hps, hql.trans hpl⟩
    · obtain ⟨q, hq, _, hqs, hql⟩ := tightenOrPush_adds k w.duration.secs w.count s'.windows
      obtain rfl := List.mem_singleton.mp hx
      exact ⟨q, hq, hqs, hql⟩
  case origin =>
    intro p hpw
    rcases mem_tightenOrPush hpw with hold | rfl
    · obtain ⟨x, hx, hps, hpl⟩ := hs.origin p (hwin ▸ hold)
      exact ⟨x, by simp [hx], hps, hpl⟩
    · exact ⟨w, by simp, rfl, rfl⟩
  case distinct =>
    have hd : (s'.windows.map PlannedWindow.spanSecs).Nodup := hwin ▸ hs.distinct
    rw [tightenOrPush_spans hsame]
    split_ifs with hmem
    · exact hd
    · exact List.nodup_append.mpr ⟨hd, by simp, by
        intro a ha b hb hab
        rw [List.mem_singleton] at hb
        exact hmem (hb ▸ hab ▸ ha)⟩

theorem foldl_represents (windows : List Window) :
    (windows.foldl addWindow start).Represents windows := by
  induction windows using List.reverseRecOn with
  | nil => exact start_represents
  | append_singleton ws w ih =>
    rw [List.foldl_append]
    exact addWindow_represents ih w

end Planner

namespace CheckPlan

/-- Builds a plan from a rule's windows. -/
def new (windows : List Window) : CheckPlan :=
  let built := windows.foldl Planner.addWindow Planner.start
  { bucketSizes := built.bucketSizes
    windows := built.windows
    retentionSecs := built.retentionSecs
    bucketSizes_pos := by
      intro b hb
      obtain ⟨w, _, rfl⟩ := (Planner.foldl_represents windows).sizes b hb
      exact bucketSize_pos w.duration }

/-- The keys of a plan: a bucket size with the span retained for it. -/
def slots (plan : CheckPlan) : List (ℕ × ℕ) := plan.bucketSizes.zip plan.retentionSecs

/-- What the script relies on: parallel lists without a repeated key, every window
served by a key that retains its span, and every retention asked for by a window. -/
structure WellFormed (plan : CheckPlan) : Prop where
  nodup : plan.bucketSizes.Nodup
  parallel : plan.retentionSecs.length = plan.bucketSizes.length
  served : ∀ p ∈ plan.windows, ∃ b r, plan.slots[p.keyIndex]? = some (b, r) ∧ p.spanSecs ≤ r
  longest : ∀ i b r, plan.slots[i]? = some (b, r) →
    ∃ p ∈ plan.windows, p.keyIndex = i ∧ p.spanSecs = r
  shortLived : ∀ b r, (b, r) ∈ plan.slots → b ≤ 53568 ∧ r ≤ 2678400

theorem slots_getElem? {plan : CheckPlan} {i b r : ℕ} :
    plan.slots[i]? = some (b, r) ↔
      plan.bucketSizes[i]? = some b ∧ plan.retentionSecs[i]? = some r := by
  simp [slots, List.getElem?_zip_eq_some]

theorem size_of_slot {plan : CheckPlan} {b r : ℕ} (h : (b, r) ∈ plan.slots) :
    b ∈ plan.bucketSizes := (List.of_mem_zip h).1

theorem WellFormed.slot_of_size {plan : CheckPlan} (h : plan.WellFormed) {b : ℕ}
    (hb : b ∈ plan.bucketSizes) : ∃ r, (b, r) ∈ plan.slots := by
  obtain ⟨i, hi, rfl⟩ := List.mem_iff_getElem.mp hb
  have hi' : i < plan.retentionSecs.length := by rw [h.parallel]; exact hi
  refine ⟨plan.retentionSecs[i], List.mem_of_getElem? (i := i) ?_⟩
  exact slots_getElem?.mpr ⟨List.getElem?_eq_getElem hi, List.getElem?_eq_getElem hi'⟩

/-- A bucket size retains one span only. -/
theorem WellFormed.slot_unique {plan : CheckPlan} (h : plan.WellFormed) {b r r' : ℕ}
    (h1 : (b, r) ∈ plan.slots) (h2 : (b, r') ∈ plan.slots) : r = r' := by
  obtain ⟨i, hi⟩ := List.mem_iff_getElem?.mp h1
  obtain ⟨j, hj⟩ := List.mem_iff_getElem?.mp h2
  obtain ⟨hib, hir⟩ := slots_getElem?.mp hi
  obtain ⟨hjb, hjr⟩ := slots_getElem?.mp hj
  obtain ⟨hlt, _⟩ := List.getElem?_eq_some_iff.mp hib
  obtain rfl : i = j := (List.getElem?_inj hlt h.nodup).mp (hib.trans hjb.symm)
  exact Option.some.inj (hir.symm.trans hjr)

section New
variable (windows : List Window)

theorem new_represents :
    Planner.Represents ⟨(new windows).bucketSizes, (new windows).retentionSecs,
      (new windows).windows⟩ windows := Planner.foldl_represents windows

/-- A planned window sits on the key of its own bucket size. -/
theorem new_served {p : PlannedWindow} (hp : p ∈ (new windows).windows) :
    ∃ r, (new windows).slots[p.keyIndex]? = some ((bucketSize (.fromSecs p.spanSecs)).secs, r) ∧
      p.spanSecs ≤ r := by
  obtain ⟨r, hr, hle⟩ := (new_represents windows).retained p hp
  exact ⟨r, slots_getElem?.mpr ⟨(new_represents windows).indexed p hp, hr⟩, hle⟩

theorem new_bucketSizes_ne_nil {windows : List Window} {w : Window} (hw : w ∈ windows) :
    (new windows).bucketSizes ≠ [] := by
  intro hnil
  obtain ⟨p, hp, _⟩ := (new_represents windows).covered w hw
  have hsize := (new_represents windows).indexed p hp
  rw [hnil] at hsize
  simp at hsize

theorem new_wellFormed (h : ∀ w ∈ windows, w.Valid) : (new windows).WellFormed where
  nodup := (new_represents windows).nodup
  parallel := (new_represents windows).parallel
  served p hp := by
    obtain ⟨r, hr, hle⟩ := new_served windows hp
    exact ⟨_, r, hr, hle⟩
  longest i b r hi := (new_represents windows).longest i r (slots_getElem?.mp hi).2
  shortLived b r hbr := by
    obtain ⟨i, hi⟩ := List.mem_iff_getElem?.mp hbr
    obtain ⟨hb, hr⟩ := slots_getElem?.mp hi
    obtain ⟨w, hw, rfl⟩ := (new_represents windows).sizes b (List.mem_of_getElem? hb)
    obtain ⟨p, hp, _, rfl⟩ := (new_represents windows).longest i r hr
    obtain ⟨x, hx, hspan, _⟩ := (new_represents windows).origin p hp
    exact ⟨bucketSize_le_max (h w hw), hspan ▸ (h x hx).atMost⟩

end New

end CheckPlan
end PostfixRatelimitd
