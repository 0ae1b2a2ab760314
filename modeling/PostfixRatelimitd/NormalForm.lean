import PostfixRatelimitd.Plan
import Mathlib.Data.Set.Function
import Mathlib.Order.Bounds.Basic

/-!
# The plan as a normal form of the rule

A plan has one key for each bucket size of the rule, kept for the longest of its windows,
and one window for each duration, with the smallest of its counts. This says all there is
in a plan but the order, so rules with the same windows have the same plan up to a
renumbering of the keys.
-/
namespace PostfixRatelimitd

/-- Only the whole seconds of a duration matter. -/
theorem bucketSize_fromSecs (d : Duration) : bucketSize (.fromSecs d.secs) = bucketSize d := rfl

namespace CheckPlan
variable {windows windows' : List Window}

/-- The keys are those of the rule's windows. -/
theorem mem_new_bucketSizes {b : ℕ} :
    b ∈ (new windows).bucketSizes ↔ ∃ w ∈ windows, (bucketSize w.duration).secs = b := by
  constructor
  · intro hb
    obtain ⟨w, hw, hsize⟩ := (new_represents windows).sizes b hb
    exact ⟨w, hw, hsize.symm⟩
  · intro h
    obtain ⟨w, hw, hsize⟩ := h
    obtain ⟨p, hp, hspan, _⟩ := (new_represents windows).covered w hw
    have hat := (new_represents windows).indexed p hp
    rw [hspan, bucketSize_fromSecs, hsize] at hat
    exact List.mem_of_getElem? hat

/-- A bucket size has one position. -/
theorem position_unique {i j b : ℕ} (hi : (new windows).bucketSizes[i]? = some b)
    (hj : (new windows).bucketSizes[j]? = some b) : i = j := by
  obtain ⟨hlt, _⟩ := List.getElem?_eq_some_iff.mp hi
  exact (List.getElem?_inj hlt (new_represents windows).nodup).mp (hi.trans hj.symm)

/-- A key retains the longest of the windows it serves. -/
theorem new_retention {i b r : ℕ} (hb : (new windows).bucketSizes[i]? = some b)
    (hr : (new windows).retentionSecs[i]? = some r) :
    IsGreatest {d | ∃ w ∈ windows, (bucketSize w.duration).secs = b ∧ w.duration.secs = d} r := by
  have hrep := new_represents windows
  constructor
  · obtain ⟨p, hp, hpi, hspan⟩ := hrep.longest i r hr
    obtain ⟨w, hw, hws, _⟩ := hrep.origin p hp
    have hat := hrep.indexed p hp
    rw [hpi, hws, bucketSize_fromSecs] at hat
    exact ⟨w, hw, Option.some.inj (hat.symm.trans hb), hws.symm.trans hspan⟩
  · intro d hd
    obtain ⟨w, hw, hsize, rfl⟩ := hd
    obtain ⟨p, hp, hspan, _⟩ := hrep.covered w hw
    have hat := hrep.indexed p hp
    rw [hspan, bucketSize_fromSecs, hsize] at hat
    obtain ⟨r', hr', hle⟩ := hrep.retained p hp
    rw [position_unique hat hb] at hr'
    have hsame : r' = r := Option.some.inj (hr'.symm.trans hr)
    omega

/-- A span has one planned window. -/
theorem span_unique {p q : PlannedWindow} (hp : p ∈ (new windows).windows)
    (hq : q ∈ (new windows).windows) (h : p.spanSecs = q.spanSecs) : p = q :=
  List.inj_on_of_nodup_map (new_represents windows).distinct hp hq h

/-- A planned window has the smallest count given for its span. -/
theorem new_limit {p : PlannedWindow} (hp : p ∈ (new windows).windows) :
    IsLeast {n | ∃ w ∈ windows, w.duration.secs = p.spanSecs ∧ w.count.toNat = n}
      p.limit.toNat := by
  constructor
  · obtain ⟨w, hw, hspan, hlimit⟩ := (new_represents windows).origin p hp
    exact ⟨w, hw, hspan.symm, by rw [hlimit]⟩
  · intro n hn
    obtain ⟨w, hw, hspan, rfl⟩ := hn
    obtain ⟨q, hq, hqs, hle⟩ := (new_represents windows).covered w hw
    have hsame : q = p := span_unique hq hp (hqs.trans hspan)
    rw [hsame] at hle
    exact hle

/-- What a planned window is, without regard to the order of the windows. -/
theorem mem_new_windows {p : PlannedWindow} :
    p ∈ (new windows).windows ↔
      IsLeast {n | ∃ w ∈ windows, w.duration.secs = p.spanSecs ∧ w.count.toNat = n} p.limit.toNat ∧
        (new windows).bucketSizes[p.keyIndex]? = some (bucketSize (.fromSecs p.spanSecs)).secs := by
  constructor
  · intro hp
    exact ⟨new_limit hp, (new_represents windows).indexed p hp⟩
  · intro h
    obtain ⟨hleast, hat⟩ := h
    obtain ⟨w, hw, hspan, _⟩ := hleast.1
    obtain ⟨q, hq, hqs, _⟩ := (new_represents windows).covered w hw
    have hspans : q.spanSecs = p.spanSecs := hqs.trans hspan
    have hlimit : q.limit.toNat = p.limit.toNat := by
      have hq' := new_limit hq
      rw [hspans] at hq'
      exact hq'.unique hleast
    have hindex : q.keyIndex = p.keyIndex := by
      have hat' := (new_represents windows).indexed q hq
      rw [hspans] at hat'
      exact position_unique hat' hat
    have hsame : q = p := by
      obtain ⟨qk, qs, ql⟩ := q
      obtain ⟨pk, ps, pl⟩ := p
      simp only at hindex hspans hlimit
      rw [hindex, hspans, UInt32.toNat_inj.mp hlimit]
    exact hsame ▸ hq

/-! ## Renumbering -/

/-- The keys of one plan are those of the other at the positions `σ` says, and its windows
are the windows of the other in some order. -/
structure Renumbers (σ : ℕ → ℕ) (plan plan' : CheckPlan) : Prop where
  positions : Set.BijOn σ (Set.Iio plan.bucketSizes.length) (Set.Iio plan'.bucketSizes.length)
  sizes : ∀ i < plan.bucketSizes.length, plan'.bucketSizes[σ i]? = plan.bucketSizes[i]?
  retentions : ∀ i < plan.bucketSizes.length, plan'.retentionSecs[σ i]? = plan.retentionSecs[i]?
  windows : (plan.windows.map (fun p => { p with keyIndex := σ p.keyIndex })).Perm plan'.windows

/-- Where the key at position `i` of the one rule's plan stands in the other's. -/
def renumber (windows windows' : List Window) (i : ℕ) : ℕ :=
  (new windows').bucketSizes.idxOf ((new windows).bucketSizes.getD i 0)

section Renumber
variable (h : ∀ w, w ∈ windows' ↔ w ∈ windows)
include h

theorem mem_bucketSizes_congr (b : ℕ) :
    b ∈ (new windows').bucketSizes ↔ b ∈ (new windows).bucketSizes := by
  simp only [mem_new_bucketSizes, h]

theorem renumber_size {i b : ℕ} (hb : (new windows).bucketSizes[i]? = some b) :
    (new windows').bucketSizes[renumber windows windows' i]? = some b := by
  have hmem : b ∈ (new windows').bucketSizes :=
    (mem_bucketSizes_congr h b).mpr (List.mem_of_getElem? hb)
  have hat : (new windows).bucketSizes.getD i 0 = b := by
    rw [List.getD_eq_getElem?_getD, hb, Option.getD_some]
  unfold renumber
  rw [hat, List.getElem?_eq_getElem (List.idxOf_lt_length_iff.mpr hmem), List.getElem_idxOf]

theorem renumber_bijOn : Set.BijOn (renumber windows windows')
    (Set.Iio (new windows).bucketSizes.length) (Set.Iio (new windows').bucketSizes.length) := by
  refine ⟨?_, ?_, ?_⟩
  · intro i hi
    have hsize := renumber_size h (List.getElem?_eq_getElem (Set.mem_Iio.mp hi))
    exact (List.getElem?_eq_some_iff.mp hsize).1
  · intro i hi j hj hij
    have hsize := renumber_size h (List.getElem?_eq_getElem (Set.mem_Iio.mp hi))
    have hsize' := renumber_size h (List.getElem?_eq_getElem (Set.mem_Iio.mp hj))
    rw [hij] at hsize
    have hsame := Option.some.inj (hsize.symm.trans hsize')
    exact (List.Nodup.getElem_inj_iff (new_represents windows).nodup).mp hsame
  · intro j hj
    have hat := List.getElem?_eq_getElem (Set.mem_Iio.mp hj)
    have hmem := (mem_bucketSizes_congr h _).mp (List.mem_of_getElem? hat)
    obtain ⟨i, hi⟩ := List.mem_iff_getElem?.mp hmem
    exact ⟨i, (List.getElem?_eq_some_iff.mp hi).1, position_unique (renumber_size h hi) hat⟩

theorem renumber_retention {i b : ℕ} (hb : (new windows).bucketSizes[i]? = some b) :
    (new windows').retentionSecs[renumber windows windows' i]? =
      (new windows).retentionSecs[i]? := by
  have hb' := renumber_size h hb
  have hlt := (List.getElem?_eq_some_iff.mp hb).1
  have hlt' := (List.getElem?_eq_some_iff.mp hb').1
  rw [← (new_represents windows).parallel] at hlt
  rw [← (new_represents windows').parallel] at hlt'
  have hr := List.getElem?_eq_getElem hlt
  have hr' := List.getElem?_eq_getElem hlt'
  have hgreatest := new_retention hb' hr'
  simp only [h] at hgreatest
  rw [hr, hr', hgreatest.unique (new_retention hb hr)]

/-- Both lists are without repetition, so it is enough that they have the same members. -/
theorem renumber_windows : ((new windows).windows.map
    (fun p => { p with keyIndex := renumber windows windows' p.keyIndex })).Perm
      (new windows').windows := by
  have hnodup' : (new windows').windows.Nodup :=
    List.Nodup.of_map _ (new_represents windows').distinct
  have hnodup : ((new windows).windows.map
      (fun p => { p with keyIndex := renumber windows windows' p.keyIndex })).Nodup := by
    apply List.Nodup.of_map PlannedWindow.spanSecs
    rw [List.map_map]
    exact (new_represents windows).distinct
  apply (List.perm_ext_iff_of_nodup hnodup hnodup').mpr
  intro p
  rw [List.mem_map, mem_new_windows]
  simp only [h]
  constructor
  · intro hp
    obtain ⟨q, hq, rfl⟩ := hp
    obtain ⟨hleast, hat⟩ := mem_new_windows.mp hq
    exact ⟨hleast, renumber_size h hat⟩
  · intro hp
    obtain ⟨hleast, hat⟩ := hp
    have hmem := (mem_bucketSizes_congr h _).mp (List.mem_of_getElem? hat)
    obtain ⟨i, hi⟩ := List.mem_iff_getElem?.mp hmem
    have hindex : renumber windows windows' i = p.keyIndex :=
      position_unique (renumber_size h hi) hat
    refine ⟨{ p with keyIndex := i }, mem_new_windows.mpr ⟨hleast, hi⟩, ?_⟩
    simp only [hindex]

theorem renumbers : Renumbers (renumber windows windows') (new windows) (new windows') where
  positions := renumber_bijOn h
  sizes i hi := by
    have hat := List.getElem?_eq_getElem hi
    rw [hat, renumber_size h hat]
  retentions i hi := renumber_retention h (List.getElem?_eq_getElem hi)
  windows := renumber_windows h

end Renumber

/-- A plan says exactly what its rule says: its bucket sizes are those of the windows, each
kept for the longest window that has it, and it has one window for each duration, with the
smallest count. Rules with the same windows have the same plan but for the order. -/
theorem new_normal_form (windows : List Window) (hvalid : ∀ w ∈ windows, w.Valid) :
    (new windows).bucketSizes.Nodup ∧
      (∀ b, b ∈ (new windows).bucketSizes ↔ ∃ w ∈ windows, (bucketSize w.duration).secs = b) ∧
      (new windows).retentionSecs.length = (new windows).bucketSizes.length ∧
      (∀ i b r : ℕ, (new windows).bucketSizes[i]? = some b →
        (new windows).retentionSecs[i]? = some r → IsGreatest
          {d | ∃ w ∈ windows, (bucketSize w.duration).secs = b ∧ w.duration.secs = d} r) ∧
      (∀ p ∈ (new windows).windows, (new windows).bucketSizes[p.keyIndex]? =
        some (bucketSize (.fromSecs p.spanSecs)).secs) ∧
      ((new windows).windows.map (fun p => Duration.fromSecs p.spanSecs)).Nodup ∧
      (∀ d, d ∈ (new windows).windows.map (fun p => Duration.fromSecs p.spanSecs) ↔
        ∃ w ∈ windows, w.duration = d) ∧
      (∀ p ∈ (new windows).windows, IsLeast
        {n | ∃ w ∈ windows, w.duration = .fromSecs p.spanSecs ∧ w.count.toNat = n}
          p.limit.toNat) ∧
      ∀ windows', (∀ w, w ∈ windows' ↔ w ∈ windows) →
        ∃ σ, Renumbers σ (new windows) (new windows') := by
  have hrep := new_represents windows
  -- A valid duration is its whole seconds.
  have hwhole : ∀ w ∈ windows, ∀ secs, w.duration = .fromSecs secs ↔ w.duration.secs = secs := by
    intro w hw secs
    have hnanos := (hvalid w hw).whole
    obtain ⟨count, secs', nanos, hlt⟩ := w
    simp only at hnanos
    subst hnanos
    simp [Duration.fromSecs]
  refine ⟨hrep.nodup, fun b => mem_new_bucketSizes, hrep.parallel, ?_, hrep.indexed, ?_, ?_, ?_, ?_⟩
  · intro i b r hb hr
    exact new_retention hb hr
  · apply List.Nodup.of_map Duration.secs
    rw [List.map_map]
    exact hrep.distinct
  · intro d
    rw [List.mem_map]
    constructor
    · intro h
      obtain ⟨p, hp, rfl⟩ := h
      obtain ⟨w, hw, hspan, _⟩ := hrep.origin p hp
      exact ⟨w, hw, (hwhole w hw _).mpr hspan.symm⟩
    · intro h
      obtain ⟨w, hw, rfl⟩ := h
      obtain ⟨p, hp, hspan, _⟩ := hrep.covered w hw
      exact ⟨p, hp, ((hwhole w hw _).mpr hspan.symm).symm⟩
  · intro p hp
    have hleast := new_limit hp
    convert hleast using 1
    ext n
    constructor
    · intro h
      obtain ⟨w, hw, hd, hn⟩ := h
      exact ⟨w, hw, (hwhole w hw _).mp hd, hn⟩
    · intro h
      obtain ⟨w, hw, hd, hn⟩ := h
      exact ⟨w, hw, (hwhole w hw _).mpr hd, hn⟩
  · intro windows' h
    exact ⟨_, renumbers h⟩

/-- The minute's stricter count is kept, and an order the other way renumbers the keys. -/
theorem new_normal_form_hour :
    let windows : List Window := [⟨9, .fromSecs 60⟩, ⟨50, .fromSecs 3600⟩, ⟨5, .fromSecs 60⟩]
    let windows' : List Window := [⟨50, .fromSecs 3600⟩, ⟨5, .fromSecs 60⟩, ⟨9, .fromSecs 60⟩]
    (∀ p ∈ (new windows).windows, IsLeast
      {n | ∃ w ∈ windows, w.duration = .fromSecs p.spanSecs ∧ w.count.toNat = n} p.limit.toNat) ∧
      ∃ σ, Renumbers σ (new windows) (new windows') := by
  intro windows windows'
  have hvalid : ∀ w ∈ windows, w.Valid := ((validateWindows_ok_iff 0 windows).mp (by decide)).2
  obtain ⟨_, _, _, _, _, _, _, hlimit, horder⟩ := new_normal_form windows hvalid
  refine ⟨hlimit, horder windows' ?_⟩
  intro w
  simp only [windows, windows', List.mem_cons, List.not_mem_nil, or_false]
  tauto

end CheckPlan
end PostfixRatelimitd
