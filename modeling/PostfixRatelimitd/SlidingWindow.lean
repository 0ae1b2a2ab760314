import PostfixRatelimitd.History

/-!
# Enforcement under one plan

With one plan throughout, a hash counts for each window exactly what the accepted
requests put into buckets ending inside it. Sharing of keys, merged windows, pruning
and expiry are therefore unobservable: the answers are those of a log that keeps
everything. Both the safety bound and the bound on overcounting are read off that.
-/
namespace PostfixRatelimitd

/-- The bucket of `e` ends after the window `w`, looking back from `now`, begins. -/
def Window.reaches (w : Window) (now : ℤ) (e : Check) : Bool :=
  counts (bucketSize w.duration).secs (now - w.duration.secs)
    (e.bucket (bucketSize w.duration).secs)

namespace Tracks
variable {p u : String} {db : Db} {log : List Check} {plan : CheckPlan} {clock : Clock}

/-- Under one plan a window that its key retains counts the log's buckets exactly. -/
theorem view_counted (ht : Tracks p u db log) (hplan : plan.WellFormed)
    (hlog : ∀ e ∈ log, e.plan = plan) (hlater : ∀ e ∈ log, e.clock ≤ clock) {b r span : ℕ}
    (hslot : (b, r) ∈ plan.slots) (hspan : span ≤ r) :
    (db.view clock (saslKey p u b)).sumOver (counts b ((clock.secs : ℤ) - span)) =
      volume Check.count (fun e => counts b ((clock.secs : ℤ) - span) (e.bucket b)) log := by
  apply le_antisymm
  · have hup := ht.upper b clock hlater (counts b ((clock.secs : ℤ) - span))
    apply hup.trans
    apply volume_mono (fun e _ => e.count_nonneg)
    intro e _ he
    exact (Bool.and_eq_true_iff.mp he).2
  · apply ht.lower b clock hlater
    intro e he hsel
    refine ⟨⟨hlog e he ▸ CheckPlan.size_of_slot hslot, ?_⟩, hsel⟩
    intro e' he' _ r' hr'
    rw [hlog e' he'] at hr'
    obtain rfl := hplan.slot_unique hr' hslot
    exact counts_mono (by omega) hsel

end Tracks

section OnePlan
variable {p u : String} {db : Db} {log : List Check} {windows : List Window} {c : Check}

/-- What the key of a planned window counts is what its configured window reaches. -/
theorem planned_counted {clock : Clock} (hvalid : ∀ w ∈ windows, w.Valid) (ht : Tracks p u db log)
    (hlog : ∀ e ∈ log, e.plan = CheckPlan.new windows) (hlater : ∀ e ∈ log, e.clock ≤ clock)
    {q : PlannedWindow} (hq : q ∈ (CheckPlan.new windows).windows) {w : Window}
    (hspan : q.spanSecs = w.duration.secs) {b r : ℕ}
    (hslot : (CheckPlan.new windows).slots[q.keyIndex]? = some (b, r)) :
    (db.view clock (saslKey p u b)).sumOver (counts b ((clock.secs : ℤ) - q.spanSecs)) =
      volume Check.count (w.reaches clock.secs) log := by
  have hplan := CheckPlan.new_wellFormed windows hvalid
  obtain ⟨r', hslot', hle⟩ := CheckPlan.new_served windows hq
  have hsize : (bucketSize (.fromSecs q.spanSecs)).secs = b ∧ r' = r := by
    simpa using hslot'.symm.trans hslot
  have h := ht.view_counted hplan hlog hlater (List.mem_of_getElem? hslot') hle
  rw [hsize.1] at h
  rw [h]
  rw [hspan] at hsize ⊢
  rw [← hsize.1]
  rfl

/-- Every window has room in the hashes exactly when it has room in the log. -/
theorem room_iff (hvalid : ∀ w ∈ windows, w.Valid) (ht : Tracks p u db log)
    (hlog : ∀ e ∈ log, e.plan = CheckPlan.new windows) (hlater : ∀ e ∈ log, e.clock ≤ c.clock)
    (hc : c.plan = CheckPlan.new windows) :
    Room (saslKey p u) c.clock c.plan db c.now c.count ↔
      ∀ w ∈ windows, c.count + volume Check.count (w.reaches c.now) log ≤ w.count.toNat := by
  rw [hc]
  constructor
  · intro hroom w hw
    obtain ⟨q, hq, hspan, hlimit⟩ := (CheckPlan.new_represents windows).covered w hw
    obtain ⟨r, hslot, _⟩ := CheckPlan.new_served windows hq
    have hfit := hroom q hq _ r hslot
    have heq := planned_counted hvalid ht hlog hlater hq hspan hslot
    unfold Check.now at hfit ⊢
    rw [heq] at hfit
    omega
  · intro hall q hq b r hslot
    obtain ⟨w, hw, hspan, hlimit⟩ := (CheckPlan.new_represents windows).origin q hq
    have heq := planned_counted hvalid ht hlog hlater hq hspan hslot
    unfold Check.now at hall ⊢
    rw [heq, hlimit]
    exact hall w hw

end OnePlan

/-- A run of one sender under the plan of one validated list of windows. -/
structure UnderOnePlan (windows : List Window) (checks : List Check) : Prop where
  valid : ∀ w ∈ windows, w.Valid
  plans : ∀ c ∈ checks, c.plan = CheckPlan.new windows
  clocks : checks.Pairwise (fun earlier later => earlier.clock ≤ later.clock)

namespace UnderOnePlan
variable {windows : List Window} {checks : List Check} {c : Check} {p u : String}

theorem orderly (h : UnderOnePlan windows checks) : Session.Orderly checks where
  plans x hx := h.plans x hx ▸ CheckPlan.new_wellFormed windows h.valid
  clocks := h.clocks

theorem init (h : UnderOnePlan windows (checks ++ [c])) : UnderOnePlan windows checks where
  valid := h.valid
  plans x hx := h.plans x (List.mem_append_left _ hx)
  clocks := (List.pairwise_append.mp h.clocks).1

theorem accepted_plan (h : UnderOnePlan windows checks) :
    ∀ e ∈ (Session.serveAll p u checks).accepted, e.plan = CheckPlan.new windows :=
  fun e he => h.plans e (Session.mem_of_accepted he)

/-- The answer to the next request, in terms of the log alone. -/
theorem serve_iff (h : UnderOnePlan windows (checks ++ [c])) :
    let s := Session.serveAll p u checks
    ((∀ w ∈ windows, c.count + volume Check.count (w.reaches c.now) s.accepted ≤ w.count.toNat) ∧
      s.reply p u c = .ok true ∧ (s.serve p u c).accepted = c :: s.accepted) ∨
    (¬(∀ w ∈ windows, c.count + volume Check.count (w.reaches c.now) s.accepted ≤ w.count.toNat) ∧
      s.reply p u c = .ok false ∧ (s.serve p u c).accepted = s.accepted) := by
  intro s
  have ht : Tracks p u s.db s.accepted := Session.serveAll_tracks h.init.orderly
  have hlater : ∀ e ∈ s.accepted, e.clock ≤ c.clock :=
    fun e he => h.orderly.last.2 e (Session.mem_of_accepted he)
  have hiff := room_iff h.valid ht h.init.accepted_plan hlater (h.plans c (by simp))
  rcases Session.serve_spec ht h.orderly.last.1 hlater with
    ⟨hroom, hreply, hacc, _⟩ | ⟨hroom, hreply, hacc, _⟩
  · exact .inl ⟨hiff.mp hroom, hreply, hacc⟩
  · exact .inr ⟨fun hall => hroom (hiff.mpr hall), hreply, hacc⟩

end UnderOnePlan

/-! ## The naive log -/

namespace Naive

/-- An accepted request: when, and how many recipients. -/
structure Entry where
  time : ℕ
  count : ℕ

/-- The append-only log and the answers given so far, both oldest first. -/
structure State where
  log : List Entry
  answers : List Bool

/-- A request fits when every configured window, on its own, has room for it. -/
def accepts (windows : List Window) (log : List Entry) (now recipientCount : ℕ) : Bool :=
  windows.all fun w =>
    let b := (bucketSize w.duration).secs
    decide (recipientCount + volume Entry.count (fun e =>
      decide ((now : ℤ) - w.duration.secs < (e.time / b + 1) * b)) log ≤ w.count.toNat)

def serve (windows : List Window) (s : State) (request : ℕ × ℕ) : State :=
  if accepts windows s.log request.1 request.2 then
    ⟨s.log ++ [⟨request.1, request.2⟩], s.answers ++ [true]⟩
  else ⟨s.log, s.answers ++ [false]⟩

/-- Serve requests, each a time and a recipient count, from an empty log. -/
def serveAll (windows : List Window) (requests : List (ℕ × ℕ)) : State :=
  requests.foldl (serve windows) ⟨[], []⟩

end Naive

/-- A request as the naive log sees it. -/
def Check.request (c : Check) : ℕ × ℕ := (c.clock.secs, c.recipientCount.toNat)

def Check.entry (c : Check) : Naive.Entry := ⟨c.clock.secs, c.recipientCount.toNat⟩

/-- The two ways to write down a log weigh the same. -/
theorem volume_entries (pick : Naive.Entry → Bool) (log : List Check) :
    ((volume Naive.Entry.count pick (log.reverse.map Check.entry) : ℕ) : ℤ) =
      volume Check.count (fun e => pick e.entry) log := by
  rw [volume_map, volume_perm (List.reverse_perm log)]
  induction log with
  | nil => rfl
  | cons e log ih =>
    rw [volume_cons, volume_cons, Nat.cast_add, ih]
    congr 1
    split <;> rfl

theorem naive_accepts_iff (windows : List Window) (log : List Check) (c : Check) :
    Naive.accepts windows (log.reverse.map Check.entry) c.request.1 c.request.2 = true ↔
      ∀ w ∈ windows, c.count + volume Check.count (w.reaches c.now) log ≤ w.count.toNat := by
  unfold Naive.accepts
  rw [List.all_eq_true]
  apply forall₂_congr
  intro w _
  have hsum := volume_entries (fun e => decide ((c.request.1 : ℤ) - w.duration.secs <
    (e.time / (bucketSize w.duration).secs + 1) * (bucketSize w.duration).secs)) log
  have hreach : (fun e : Check => decide ((c.request.1 : ℤ) - w.duration.secs <
      (e.entry.time / (bucketSize w.duration).secs + 1) * (bucketSize w.duration).secs)) =
      w.reaches c.now := by
    funext e
    rfl
  rw [hreach] at hsum
  have hcount : c.count = (c.request.2 : ℤ) := rfl
  simp only [decide_eq_true_eq]
  omega

/-- The database and the naive log answer alike, and go on alike. -/
theorem serveAll_naive {p u : String} {windows : List Window} {checks : List Check}
    (h : UnderOnePlan windows checks) :
    let s := Session.serveAll p u checks
    let n := Naive.serveAll windows (checks.map Check.request)
    n.log = s.accepted.reverse.map Check.entry ∧
      s.answers.reverse.map Prod.snd = n.answers.map Except.ok := by
  induction checks using List.reverseRecOn with
  | nil => exact ⟨rfl, rfl⟩
  | append_singleton checks c ih =>
    obtain ⟨hlog, hanswers⟩ := ih h.init
    have hnaive := naive_accepts_iff windows (Session.serveAll p u checks).accepted c
    have hstep : Naive.serveAll windows ((checks ++ [c]).map Check.request) =
        Naive.serve windows (Naive.serveAll windows (checks.map Check.request)) c.request := by
      simp [Naive.serveAll]
    rw [hstep, Session.serveAll_snoc]
    simp only [Session.serve_answers, List.reverse_cons, List.map_append, hanswers]
    rcases h.serve_iff (p := p) (u := u) with ⟨hall, hreply, hacc⟩ | ⟨hall, hreply, hacc⟩
    · have hyes := hnaive.mpr hall
      rw [← hlog] at hyes
      rw [hreply, hacc]
      unfold Naive.serve
      rw [if_pos hyes, hlog]
      exact ⟨by simp [Check.entry, Check.request], by simp⟩
    · have hno : ¬(Naive.accepts windows (Naive.serveAll windows (checks.map Check.request)).log
          c.request.1 c.request.2 = true) := by
        rw [hlog, hnaive]
        exact hall
      rw [hreply, hacc]
      unfold Naive.serve
      rw [if_neg hno, hlog]
      exact ⟨rfl, by simp⟩

/-- Under the plan of any validated windows the sequence of answers is the one of the
reference that never forgets. -/
theorem answers_eq_naive (ruleIndex : ℕ) (windows : List Window)
    (hvalid : validateWindows ruleIndex windows = .ok ()) (p u : String) (checks : List Check)
    (hplans : ∀ c ∈ checks, c.plan = CheckPlan.new windows)
    (hclocks : checks.Pairwise (fun earlier later => earlier.clock ≤ later.clock)) :
    (Session.serveAll p u checks).answers.reverse.map Prod.snd =
      (Naive.serveAll windows
        (checks.map fun c => (c.clock.secs, c.recipientCount.toNat))).answers.map
        Except.ok :=
  (serveAll_naive ⟨((validateWindows_ok_iff _ _).mp hvalid).2, hplans, hclocks⟩).2

theorem answers_eq_naive_minute :
    (Session.serveAll "postfix-ratelimitd" "alice"
        [⟨⟨0, by decide⟩, 1, CheckPlan.new [⟨1, .fromSecs 60⟩]⟩,
          ⟨⟨60999999, by decide⟩, 1, CheckPlan.new [⟨1, .fromSecs 60⟩]⟩]).answers.reverse.map
            Prod.snd =
      (Naive.serveAll [⟨1, .fromSecs 60⟩] [(0, 1), (60, 1)]).answers.map Except.ok := by
  have h := answers_eq_naive 0 [⟨1, .fromSecs 60⟩] (by decide) "postfix-ratelimitd" "alice"
    [⟨⟨0, by decide⟩, 1, CheckPlan.new [⟨1, .fromSecs 60⟩]⟩,
      ⟨⟨60999999, by decide⟩, 1, CheckPlan.new [⟨1, .fromSecs 60⟩]⟩]
    (by simp) (by simp [Clock.le_iff])
  have hsecs : (⟨60999999, by decide⟩ : Clock).secs = 60 := by decide
  have hstart : (⟨0, by decide⟩ : Clock).secs = 0 := by decide
  have hone : (1 : UInt32).toNat = 1 := by decide
  simp only [List.map_cons, List.map_nil, hsecs, hstart, hone] at h
  exact h

/-! ## Safety and overcounting -/

section Bounds
variable {p u : String} {windows : List Window} {checks : List Check}

/-- Every accepted request fitted with all that was accepted up to the window's span
before it. -/
theorem accepted_guarded (h : UnderOnePlan windows checks) {w : Window} (hw : w ∈ windows) :
    Guarded Check.now Check.count (w.duration.secs : ℤ) (w.count.toNat : ℤ)
      (Session.serveAll p u checks).accepted := by
  induction checks using List.reverseRecOn with
  | nil => trivial
  | append_singleton checks c ih =>
    rw [Session.serveAll_snoc]
    rcases h.serve_iff (p := p) (u := u) with ⟨hall, _, hacc⟩ | ⟨_, _, hacc⟩
    · rw [hacc]
      refine ⟨?_, ih h.init⟩
      have hb := bucketSize_pos w.duration
      have hinside : volume Check.count (fun x => decide (c.now - w.duration.secs ≤ x.now))
          (Session.serveAll p u checks).accepted ≤
          volume Check.count (w.reaches c.now) (Session.serveAll p u checks).accepted := by
        apply volume_mono (fun e _ => e.count_nonneg)
        intro e _ he
        have hend : e.now < (e.bucket (bucketSize w.duration).secs + 1) *
            (bucketSize w.duration).secs := Int.lt_ediv_add_one_mul_self e.now (by omega)
        have hstart := of_decide_eq_true he
        exact counts_iff.mpr (by omega)
      have hfit := hall w hw
      omega
    · rw [hacc]
      exact ih h.init

/-- No closed interval as long as a window carries more than the window's cap. -/
theorem accepted_window_le (h : UnderOnePlan windows checks) {w : Window} (hw : w ∈ windows)
    (a : ℤ) :
    volume Check.count (fun c => decide (a ≤ c.now ∧ c.now ≤ a + w.duration.secs))
      (Session.serveAll p u checks).accepted ≤ w.count.toNat := by
  have hsorted : (Session.serveAll p u checks).accepted.Pairwise
      (fun newer older => older.now ≤ newer.now) :=
    (Session.accepted_sorted h.orderly).imp (fun hle => Int.ofNat_le.mpr (Clock.secs_mono hle))
  exact volume_window_le (Int.natCast_nonneg _) (fun e _ => e.count_nonneg) hsorted
    (accepted_guarded h hw) a

/-- What a window reaches never passes its cap, also between requests and long after. -/
theorem reaches_le_limit (h : UnderOnePlan windows checks) {w : Window} (hw : w ∈ windows)
    {now : ℤ} (hnow : ∀ e ∈ (Session.serveAll p u checks).accepted, e.now ≤ now) :
    volume Check.count (w.reaches now) (Session.serveAll p u checks).accepted ≤
      w.count.toNat := by
  induction checks using List.reverseRecOn with
  | nil => exact Int.natCast_nonneg _
  | append_singleton checks c ih =>
    rw [Session.serveAll_snoc] at hnow ⊢
    rcases h.serve_iff (p := p) (u := u) with ⟨hall, _, hacc⟩ | ⟨_, _, hacc⟩
    · rw [hacc] at hnow ⊢
      have hlater : c.now ≤ now := hnow c List.mem_cons_self
      -- What is still in reach was in reach when the newest request was checked.
      have hold : volume Check.count (w.reaches now) (Session.serveAll p u checks).accepted ≤
          volume Check.count (w.reaches c.now) (Session.serveAll p u checks).accepted := by
        apply volume_mono (fun e _ => e.count_nonneg)
        intro e _ he
        exact counts_mono (by omega) he
      have hhead : (if w.reaches now c then c.count else 0) ≤ c.count := by
        split
        · exact le_rfl
        · exact c.count_nonneg
      rw [volume_cons]
      exact (add_le_add hhead hold).trans (hall w hw)
    · rw [hacc] at hnow ⊢
      exact ih h.init hnow

/-- What a window reaches lies less than a bucket outside it. -/
theorem reaches_recent {w : Window} {now : ℤ} {e : Check} (h : w.reaches now e) :
    now - w.duration.secs - (bucketSize w.duration).secs < e.now := by
  have hb := bucketSize_pos w.duration
  have hfloor : e.now / ((bucketSize w.duration).secs : ℤ) * (bucketSize w.duration).secs ≤ e.now :=
    Int.ediv_mul_le e.now (by omega)
  have hend := counts_iff.mp h
  unfold Check.bucket at hend
  rw [add_mul, one_mul] at hend
  omega

/-- A request is refused only for what some window's cap leaves no room for, with at most
a fiftieth of the window counted too long. A sender idle for that long is served. -/
theorem rejected_only_over_limit (ruleIndex : ℕ) (windows : List Window)
    (hvalid : validateWindows ruleIndex windows = .ok ()) (p u : String) (checks : List Check)
    (c : Check) (hplans : ∀ x ∈ checks ++ [c], x.plan = CheckPlan.new windows)
    (hclocks : (checks ++ [c]).Pairwise (fun earlier later => earlier.clock ≤ later.clock)) :
    let s := Session.serveAll p u checks
    let recent := fun (w : Window) (e : Check) =>
      decide (c.now - w.duration.secs - (bucketSize w.duration).secs < e.now ∧ e.now ≤ c.now)
    (s.reply p u c ≠ .ok true → ∃ w ∈ windows,
      (w.count.toNat : ℤ) < c.count + volume Check.count (recent w) s.accepted ∧
        50 * (bucketSize w.duration).secs ≤ w.duration.secs) ∧
    ((∀ w ∈ windows, c.count ≤ w.count.toNat ∧ ∀ e ∈ s.accepted, recent w e = false) →
      s.reply p u c = .ok true) := by
  intro s recent
  have h : UnderOnePlan windows (checks ++ [c]) :=
    ⟨((validateWindows_ok_iff _ _).mp hvalid).2, hplans, hclocks⟩
  have hpast : ∀ e ∈ s.accepted, e.now ≤ c.now := by
    intro e he
    exact Int.ofNat_le.mpr (Clock.secs_mono (h.orderly.last.2 e (Session.mem_of_accepted he)))
  have hreach : ∀ w : Window, volume Check.count (w.reaches c.now) s.accepted ≤
      volume Check.count (recent w) s.accepted := by
    intro w
    apply volume_mono (fun e _ => e.count_nonneg)
    intro e he hr
    exact decide_eq_true ⟨reaches_recent hr, hpast e he⟩
  have hrefused : s.reply p u c ≠ .ok true → ∃ w ∈ windows,
      (w.count.toNat : ℤ) < c.count + volume Check.count (recent w) s.accepted ∧
        50 * (bucketSize w.duration).secs ≤ w.duration.secs := by
    intro hno
    rcases h.serve_iff (p := p) (u := u) with ⟨_, hreply, _⟩ | ⟨hover, _, _⟩
    · exact absurd hreply hno
    · push Not at hover
      obtain ⟨w, hw, hlt⟩ := hover
      exact ⟨w, hw, hlt.trans_le (add_le_add le_rfl (hreach w)), bucketSize_fits (h.valid w hw)⟩
  refine ⟨hrefused, ?_⟩
  intro hidle
  by_contra hno
  obtain ⟨w, hw, hlt, _⟩ := hrefused hno
  obtain ⟨hroom, hquiet⟩ := hidle w hw
  rw [volume_eq_zero hquiet] at hlt
  omega

/-- Half a second after the minute the old bucket still counts, a second later it does not. -/
theorem rejected_only_over_limit_minute :
    let w : Window := ⟨1, .fromSecs 60⟩
    let first : Check := ⟨⟨0, by decide⟩, 1, CheckPlan.new [w]⟩
    let early : Check := ⟨⟨60500000, by decide⟩, 1, CheckPlan.new [w]⟩
    let later : Check := ⟨⟨61500000, by decide⟩, 1, CheckPlan.new [w]⟩
    let s := Session.serveAll "postfix-ratelimitd" "alice" [first]
    (s.reply "postfix-ratelimitd" "alice" early = .ok false ∧
      ∃ w' ∈ [w], (w'.count.toNat : ℤ) < early.count + volume Check.count (fun e => decide
        (early.now - w'.duration.secs - (bucketSize w'.duration).secs < e.now ∧
          e.now ≤ early.now)) s.accepted ∧
        50 * (bucketSize w'.duration).secs ≤ w'.duration.secs) ∧
    s.accepted.map (fun e => (e.now, e.count)) = [(0, 1)] ∧
    s.reply "postfix-ratelimitd" "alice" later = .ok true := by
  intro w first early later s
  have hrefused : s.reply "postfix-ratelimitd" "alice" early = .ok false := by decide +kernel
  have hearly := rejected_only_over_limit 0 [w] (by decide) "postfix-ratelimitd" "alice" [first]
    early (by simp [first, early]) (by simp [first, early, Clock.le_iff])
  have hlater := rejected_only_over_limit 0 [w] (by decide) "postfix-ratelimitd" "alice" [first]
    later (by simp [first, later]) (by simp [first, later, Clock.le_iff])
  refine ⟨⟨hrefused, hearly.1 ?_⟩, by decide +kernel, hlater.2 (by decide +kernel)⟩
  show s.reply "postfix-ratelimitd" "alice" early ≠ .ok true
  rw [hrefused]
  simp

end Bounds

end PostfixRatelimitd
