import PostfixRatelimitd.History

/-!
# Changes of plan

A reload, another rule or another instance may put every request of a sender under a
plan of its own. A window still sees what was accepted inside it, as long as each of
those requests wrote the window's key with a retention that covers the window.
Nothing else that ran in between can have aged them out.
-/
namespace PostfixRatelimitd

/-- A plan as the config loader builds it: from a validated list of windows, or empty
for an unrestricted rule. -/
def CheckPlan.Built (plan : CheckPlan) : Prop :=
  plan = CheckPlan.new [] ∨
    ∃ ruleIndex windows, validateWindows ruleIndex windows = .ok () ∧ plan = CheckPlan.new windows

theorem CheckPlan.Built.wellFormed {plan : CheckPlan} (h : plan.Built) : plan.WellFormed := by
  rcases h with rfl | ⟨ruleIndex, windows, hvalid, rfl⟩
  · exact new_wellFormed [] (by simp)
  · exact new_wellFormed windows ((validateWindows_ok_iff _ _).mp hvalid).2

/-- Every recorded request inside the window is still counted in the window's key. -/
theorem Tracks.window_counted {p u : String} {db : Db} {log : List Check} {clock : Clock}
    (ht : Tracks p u db log) (hplans : ∀ e ∈ log, e.plan.WellFormed)
    (hlater : ∀ e ∈ log, e.clock ≤ clock) {b span : ℕ} (hb : 0 < b)
    (hkeeps : ∀ e ∈ log, (clock.secs : ℤ) - span ≤ e.now →
      ∃ r, (b, r) ∈ e.plan.slots ∧ span ≤ r) :
    volume Check.count (fun e => decide ((clock.secs : ℤ) - span ≤ e.now)) log ≤
      (db.view clock (saslKey p u b)).sumOver (counts b ((clock.secs : ℤ) - span)) := by
  apply ht.lower b clock hlater
  intro e he hinside
  have hstart : (clock.secs : ℤ) - span ≤ e.now := of_decide_eq_true hinside
  have hend : e.now < (e.bucket b + 1) * b := Int.lt_ediv_add_one_mul_self e.now (by omega)
  have hcounted : counts b ((clock.secs : ℤ) - span) (e.bucket b) := counts_iff.mpr (by omega)
  refine ⟨⟨?_, ?_⟩, hcounted⟩
  · obtain ⟨r, hslot, _⟩ := hkeeps e he hstart
    exact CheckPlan.size_of_slot hslot
  · -- A later write lies inside the window as well, so its retention covers it.
    intro e' he' hle r' hslot'
    have hsecs : e.now ≤ e'.now := Int.ofNat_le.mpr (Clock.secs_mono hle)
    obtain ⟨r, hslot, hcover⟩ := hkeeps e' he' (by omega)
    obtain rfl := (hplans e' he').slot_unique hslot hslot'
    exact counts_mono (by omega) hcounted

/-- A window that every request inside it retained holds across all changes of plan:
what it accepts fits with all that was accepted inside it before. -/
theorem surviving_window_le (p u : String) (checks : List Check) (c : Check)
    (hplans : ∀ x ∈ checks ++ [c], x.plan.Built)
    (hclocks : (checks ++ [c]).Pairwise (fun earlier later => earlier.clock ≤ later.clock))
    (window : PlannedWindow) (hwindow : window ∈ c.plan.windows) (b : ℕ)
    (hsize : c.plan.bucketSizes[window.keyIndex]? = some b)
    (hreply : (Session.serveAll p u checks).reply p u c = .ok true)
    (hkeeps : ∀ e ∈ (Session.serveAll p u checks).accepted,
      c.now - window.spanSecs ≤ e.now ∧ e.now ≤ c.now →
        ∃ retention, (b, retention) ∈ e.plan.slots ∧ window.spanSecs ≤ retention) :
    c.count + volume Check.count
      (fun e => decide (c.now - window.spanSecs ≤ e.now ∧ e.now ≤ c.now))
        (Session.serveAll p u checks).accepted ≤ window.limit.toNat := by
  set s := Session.serveAll p u checks with hs
  have horderly : Session.Orderly (checks ++ [c]) :=
    ⟨fun x hx => (hplans x hx).wellFormed, hclocks⟩
  have hmem : ∀ e ∈ s.accepted, e ∈ checks := fun e he => Session.mem_of_accepted he
  have ht : Tracks p u s.db s.accepted := Session.serveAll_tracks horderly.init
  have hlater : ∀ e ∈ s.accepted, e.clock ≤ c.clock := fun e he => horderly.last.2 e (hmem e he)
  have hpast : ∀ e ∈ s.accepted, e.now ≤ c.now :=
    fun e he => Int.ofNat_le.mpr (Clock.secs_mono (hlater e he))
  have hroom : Room (saslKey p u) c.clock c.plan s.db c.now c.count := by
    rcases Session.serve_spec ht horderly.last.1 hlater with ⟨hroom, _⟩ | ⟨_, hrefused, _⟩
    · exact hroom
    · rw [hreply] at hrefused
      cases hrefused
  obtain ⟨b', r, hslot, _⟩ := horderly.last.1.served window hwindow
  obtain ⟨hb', _⟩ := CheckPlan.slots_getElem?.mp hslot
  obtain rfl : b' = b := Option.some.inj (hb'.symm.trans hsize)
  have hcounted := ht.window_counted (fun e he => horderly.init.plans e (hmem e he)) hlater
    (c.plan.bucketSizes_pos b' (List.mem_of_getElem? hsize))
    (fun e he hstart => hkeeps e he ⟨hstart, hpast e he⟩)
  have hsame : volume Check.count
      (fun e => decide (c.now - window.spanSecs ≤ e.now ∧ e.now ≤ c.now)) s.accepted ≤
      volume Check.count (fun e => decide (c.now - window.spanSecs ≤ e.now)) s.accepted := by
    apply volume_mono (fun e _ => e.count_nonneg)
    intro e _ he
    exact decide_eq_true (of_decide_eq_true he).1
  have hfit := hroom window hwindow b' r hslot
  exact (add_le_add le_rfl (hsame.trans hcounted)).trans hfit

/-- The hour's count goes on through a reload that raises it and adds a minute. -/
theorem surviving_window_le_reload :
    let before := CheckPlan.new [⟨1, .fromSecs 3600⟩]
    let after := CheckPlan.new [⟨1, .fromSecs 60⟩, ⟨3, .fromSecs 3600⟩]
    let checks : List Check := [⟨⟨0, by decide⟩, 1, before⟩]
    let c : Check := ⟨⟨120000000, by decide⟩, 1, after⟩
    c.count + volume Check.count (fun e => decide (c.now - 3600 ≤ e.now ∧ e.now ≤ c.now))
      (Session.serveAll "postfix-ratelimitd" "alice" checks).accepted ≤ 3 := by
  intro before after checks c
  have hlast : (⟨1, 3600, 3⟩ : PlannedWindow) ∈ after.windows := by decide +kernel
  have hreply : (Session.serveAll "postfix-ratelimitd" "alice" checks).reply
      "postfix-ratelimitd" "alice" c = .ok true := by decide +kernel
  have hbefore : before.Built := .inr ⟨0, _, by decide, rfl⟩
  have hafter : after.Built := .inr ⟨0, _, by decide, rfl⟩
  apply surviving_window_le "postfix-ratelimitd" "alice" checks c
    (by simp [checks, c, hbefore, hafter]) (by simp [checks, c, Clock.le_iff])
    ⟨1, 3600, 3⟩ hlast 64 (by decide +kernel) hreply
  intro e he _
  have hplan : e.plan = before := by
    have := Session.mem_of_accepted he
    simp only [checks, List.mem_singleton] at this
    rw [this]
  refine ⟨3600, ?_, le_rfl⟩
  rw [hplan]
  decide +kernel

/-! ## A window that all plans have -/

/-- The key of a planned window keeps what the window counts. -/
theorem CheckPlan.Built.slot_of_window {plan : CheckPlan} (h : plan.Built) {q : PlannedWindow}
    (hq : q ∈ plan.windows) :
    ∃ r, plan.slots[q.keyIndex]? = some ((bucketSize (.fromSecs q.spanSecs)).secs, r) ∧
      q.spanSecs ≤ r := by
  rcases h with rfl | ⟨ruleIndex, windows, _, rfl⟩
  · exact new_served [] hq
  · exact new_served windows hq

/-- The plan holds a sender to `limit` recipients in `span` seconds, whatever else it does. -/
structure CheckPlan.HoldsTo (span limit : ℕ) (plan : CheckPlan) : Prop where
  built : plan.Built
  window : ∃ q ∈ plan.windows, q.spanSecs = span ∧ q.limit.toNat ≤ limit

/-- A plan holds a sender to each window it was built from. -/
theorem CheckPlan.new_holdsTo {ruleIndex : ℕ} {windows : List Window}
    (hvalid : validateWindows ruleIndex windows = .ok ()) {w : Window} (hw : w ∈ windows) :
    (new windows).HoldsTo w.duration.secs w.count.toNat where
  built := .inr ⟨ruleIndex, windows, hvalid, rfl⟩
  window := (new_represents windows).covered w hw

/-- A run of one sender under plans that all hold it to one window. -/
structure AcrossPlans (span limit : ℕ) (checks : List Check) : Prop where
  plans : ∀ c ∈ checks, c.plan.HoldsTo span limit
  clocks : checks.Pairwise (fun earlier later => earlier.clock ≤ later.clock)

namespace AcrossPlans
variable {span limit : ℕ} {checks : List Check} {c : Check} {p u : String}

theorem orderly (h : AcrossPlans span limit checks) : Session.Orderly checks where
  plans x hx := (h.plans x hx).built.wellFormed
  clocks := h.clocks

theorem init (h : AcrossPlans span limit (checks ++ [c])) : AcrossPlans span limit checks where
  plans x hx := h.plans x (List.mem_append_left _ hx)
  clocks := (List.pairwise_append.mp h.clocks).1

/-- What one plan accepted is still in the way under the next. -/
theorem accepted_guarded (h : AcrossPlans span limit checks) :
    Guarded Check.now Check.count (span : ℤ) (limit : ℤ)
      (Session.serveAll p u checks).accepted := by
  induction checks using List.reverseRecOn with
  | nil => trivial
  | append_singleton checks c ih =>
    have ht : Tracks p u (Session.serveAll p u checks).db (Session.serveAll p u checks).accepted :=
      Session.serveAll_tracks h.init.orderly
    have hlater : ∀ e ∈ (Session.serveAll p u checks).accepted, e.clock ≤ c.clock :=
      fun e he => h.orderly.last.2 e (Session.mem_of_accepted he)
    rw [Session.serveAll_snoc]
    rcases Session.serve_spec ht h.orderly.last.1 hlater with
      ⟨hroom, _, haccepted, _⟩ | ⟨_, _, haccepted, _⟩
    · rw [haccepted]
      refine ⟨?_, ih h.init⟩
      obtain ⟨q, hq, rfl, hlimit⟩ := (h.plans c (by simp)).window
      obtain ⟨r, hslot, _⟩ := (h.plans c (by simp)).built.slot_of_window hq
      have hkeeps : ∀ e ∈ (Session.serveAll p u checks).accepted,
          (c.clock.secs : ℤ) - q.spanSecs ≤ e.now →
            ∃ r, ((bucketSize (.fromSecs q.spanSecs)).secs, r) ∈ e.plan.slots ∧
              q.spanSecs ≤ r := by
        intro e he _
        have hheld := h.init.plans e (Session.mem_of_accepted he)
        obtain ⟨q', hq', hspan, _⟩ := hheld.window
        obtain ⟨r', hslot', hle⟩ := hheld.built.slot_of_window hq'
        rw [hspan] at hslot' hle
        exact ⟨r', List.mem_of_getElem? hslot', hle⟩
      have hcounted := ht.window_counted
        (fun e he => h.init.orderly.plans e (Session.mem_of_accepted he)) hlater
        (bucketSize_pos _) hkeeps
      have hfit := hroom q hq _ r hslot
      have hcap : (q.limit.toNat : ℤ) ≤ limit := Int.ofNat_le.mpr hlimit
      exact ((add_le_add le_rfl hcounted).trans hfit).trans hcap
    · rw [haccepted]
      exact ih h.init

/-- No closed interval as long as the window carries more than its cap. -/
theorem accepted_window_le (h : AcrossPlans span limit checks) (a : ℤ) :
    volume Check.count (fun c => decide (a ≤ c.now ∧ c.now ≤ a + span))
      (Session.serveAll p u checks).accepted ≤ limit := by
  have hsorted : (Session.serveAll p u checks).accepted.Pairwise
      (fun newer older => older.now ≤ newer.now) :=
    (Session.accepted_sorted h.orderly).imp (fun hle => Int.ofNat_le.mpr (Clock.secs_mono hle))
  exact volume_window_le (Int.natCast_nonneg _) (fun e _ => e.count_nonneg) hsorted
    h.accepted_guarded a

end AcrossPlans
end PostfixRatelimitd
