import PostfixRatelimitd.Daemon
import PostfixRatelimitd.SharedStore

/-!
# Windows that another window implies

A longer window has buckets that the shorter window's buckets divide, so a bucket of the
longer one ends no earlier. What a shorter window reaches a longer one reaches too, under
whatever plan either is enforced. A window that is no longer than another and allows no
fewer recipients never decides a request.
-/
namespace PostfixRatelimitd
open Keyspace (AgreeOn left)

/-- Of two bucket sizes that divide each other the larger one's bucket ends no earlier. -/
theorem bucket_end_le {b b' : ℕ} (hb : 0 < b) (hb' : 0 < b') (hdvd : b ∣ b') (time : ℤ) :
    (time / (b : ℤ) + 1) * b ≤ (time / (b' : ℤ) + 1) * b' := by
  obtain ⟨k, rfl⟩ := hdvd
  have hpos : (0 : ℤ) < b := by omega
  have hend : time < (time / ((b * k : ℕ) : ℤ) + 1) * (b * k : ℕ) :=
    Int.lt_ediv_add_one_mul_self time (by omega)
  have hsame : (time / ((b * k : ℕ) : ℤ) + 1) * (b * k : ℕ) =
      (time / ((b * k : ℕ) : ℤ) + 1) * k * b := by
    rw [Nat.cast_mul, mul_comm (b : ℤ), ← mul_assoc]
  rw [hsame] at hend ⊢
  -- The shorter bucket ends at the first multiple of its size past `time`.
  have hlt := Int.ediv_lt_of_lt_mul hpos hend
  exact mul_le_mul_of_nonneg_right (by omega) hpos.le

/-- What is still in the shorter window is still in the longer one. -/
theorem counts_of_shorter {d d' : Duration} (h : d.secs ≤ d'.secs) {now : ℤ} (time : ℤ)
    (hc : counts (bucketSize d).secs (now - d.secs) (time / ((bucketSize d).secs : ℤ))) :
    counts (bucketSize d').secs (now - d'.secs) (time / ((bucketSize d').secs : ℤ)) := by
  have hle := bucket_end_le (bucketSize_pos d) (bucketSize_pos d') (bucketSize_dvd h) time
  have hend := counts_iff.mp hc
  apply counts_iff.mpr
  omega

theorem Window.reaches_of_shorter {w w' : Window} (h : w.duration.secs ≤ w'.duration.secs)
    {now : ℤ} {e : Check} (hr : w.reaches now e) : w'.reaches now e := counts_of_shorter h _ hr

/-! ## A redundant window -/

namespace Naive

/-- A window that another one implies makes no difference to the log that keeps everything. -/
theorem accepts_eraseIdx {windows : List Window} {i j : ℕ} {w w' : Window} (hij : i ≠ j)
    (hw : windows[i]? = some w) (hw' : windows[j]? = some w')
    (hduration : w.duration.secs ≤ w'.duration.secs) (hcount : w'.count.toNat ≤ w.count.toNat)
    (log : List Entry) (now recipientCount : ℕ) :
    accepts windows log now recipientCount =
      accepts (windows.eraseIdx i) log now recipientCount := by
  have hvolume : volume Entry.count (fun e => decide ((now : ℤ) - w.duration.secs <
        (e.time / (bucketSize w.duration).secs + 1) * (bucketSize w.duration).secs)) log ≤
      volume Entry.count (fun e => decide ((now : ℤ) - w'.duration.secs <
        (e.time / (bucketSize w'.duration).secs + 1) * (bucketSize w'.duration).secs)) log := by
    apply volume_mono (fun _ _ => Nat.zero_le _)
    intro e _ he
    exact counts_of_shorter hduration e.time he
  unfold accepts
  rw [Bool.eq_iff_iff, List.all_eq_true, List.all_eq_true]
  constructor
  · intro hall x hx
    exact hall x (List.mem_of_mem_eraseIdx hx)
  · intro hall x hx
    obtain ⟨k, hk⟩ := List.mem_iff_getElem?.mp hx
    by_cases hki : k = i
    · rw [hki, hw] at hk
      obtain rfl := Option.some.inj hk
      have hother := hall w' (List.mem_eraseIdx_iff_getElem?.mpr ⟨j, hij.symm, hw'⟩)
      simp only [decide_eq_true_eq] at hother ⊢
      omega
    · exact hall x (List.mem_eraseIdx_iff_getElem?.mpr ⟨k, hki, hk⟩)

end Naive

/-! ## Any sender's share of a shared store -/

namespace SaslCall

/-- The check of user `u` under prefix `p` that the call has the script execute, if it does. -/
def check (p u : String) (call : SaslCall) : Option Check :=
  if call.isFor p u && call.executed then some ⟨call.clock, call.recipientCount, call.plan⟩
  else none

theorem check_eq_some {p u : String} {call : SaslCall} {c : Check} (h : call.check p u = some c) :
    call.isFor p u = true ∧ call.executed = true ∧
      c = ⟨call.clock, call.recipientCount, call.plan⟩ := by
  unfold check at h
  split_ifs at h with hboth
  obtain ⟨hfor, hran⟩ := Bool.and_eq_true_iff.mp hboth
  exact ⟨hfor, hran, (Option.some.inj h).symm⟩

/-- A call at the server's time does to the sender's keys what its check does. -/
theorem run_checked {p u : String} {call : SaslCall} {c : Check} (h : call.check p u = some c)
    (htime : call.nowOverride = none) {db db' : Db} (hdb : AgreeOn (SaslKeys p u) db db') :
    AgreeOn (SaslKeys p u) (left (call.run db)) (left ((runCheck p u c).run db')) := by
  obtain ⟨hfor, hran, rfl⟩ := check_eq_some h
  have hown := (call.run_own hfor hdb).2
  obtain ⟨limiter, saslUsername, recipientCount, plan, nowOverride, clock, fault⟩ := call
  obtain ⟨rfl, rfl⟩ : limiter.keyPrefix = p ∧ saslUsername = u := by simpa [isFor] using hfor
  obtain rfl : nowOverride = none := htime
  -- Without the fault the call is the check itself, and it is executed as well.
  let calm : SaslCall := ⟨limiter, saslUsername, recipientCount, plan, none, clock, .none⟩
  have hcalm : calm.executed = true := by
    have hboth := Bool.and_eq_true_iff.mp hran
    exact Bool.and_eq_true_iff.mpr ⟨hboth.1, rfl⟩
  rw [left_run, left_run, if_pos hran, if_pos hran] at hown
  rw [left_run, if_pos hran]
  have hsame :
      left ((runCheck limiter.keyPrefix saslUsername ⟨clock, recipientCount, plan⟩).run db') =
      left (calm.script.run db') := by
    have hrun := calm.left_run db'
    rw [if_pos hcalm] at hrun
    exact hrun
  rw [hsame]
  exact hown

end SaslCall

/-- Under server time a sender's keys hold what its executed checks alone put there. -/
theorem serveCalls_session {p u : String} {calls : List SaslCall}
    (htime : ∀ call ∈ calls, call.isFor p u → call.nowOverride = none) :
    AgreeOn (SaslKeys p u) (serveCalls Keyspace.empty calls).1
      (Session.serveAll p u (calls.filterMap (SaslCall.check p u))).db := by
  induction calls using List.reverseRecOn with
  | nil => exact AgreeOn.refl _ _
  | append_singleton calls call ih =>
    have hagree := ih (fun x hx => htime x (List.mem_append_left _ hx))
    rw [serveCalls_snoc, List.filterMap_append]
    cases hcheck : call.check p u with
    | some c =>
      have hfor := (SaslCall.check_eq_some hcheck).1
      simp only [List.filterMap_cons, hcheck, List.filterMap_nil, Session.serveAll_snoc]
      rw [Session.serve_db]
      exact SaslCall.run_checked hcheck (htime call (by simp) hfor) hagree
    | none =>
      simp only [List.filterMap_cons, hcheck, List.filterMap_nil, List.append_nil]
      have hnone : ¬(call.isFor p u && call.executed) = true := by
        intro hboth
        unfold SaslCall.check at hcheck
        rw [if_pos hboth] at hcheck
        cases hcheck
      by_cases hfor : call.isFor p u = true
      · have hran : ¬call.executed = true := by
          intro hran
          exact hnone (Bool.and_eq_true_iff.mpr ⟨hfor, hran⟩)
        rw [call.left_run, if_neg hran]
        exact hagree
      · exact (call.run_other hfor _).trans hagree

/-- What the script would add up for a planned window if it looked now. -/
def CheckPlan.total (plan : CheckPlan) (p u : String) (db : Db) (clock : Clock)
    (window : PlannedWindow) : ℤ :=
  let b := plan.bucketSizes.getD window.keyIndex 0
  windowTotal b ((clock.secs : ℤ) - window.spanSecs) 0
    (parseFields (db.view clock (saslKey p u b)).entries).buckets

section OnePlan
variable {p u : String} {windows : List Window} {calls : List SaslCall}

/-- Under one plan that total is what the configured window reaches in the log. -/
theorem total_eq (hvalid : ∀ w ∈ windows, w.Valid) {db : Db} {log : List Check}
    (ht : Tracks p u db log) (hlog : ∀ e ∈ log, e.plan = CheckPlan.new windows) {clock : Clock}
    (hlater : ∀ e ∈ log, e.clock ≤ clock) {q : PlannedWindow}
    (hq : q ∈ (CheckPlan.new windows).windows) {w : Window} (hspan : q.spanSecs = w.duration.secs) :
    (CheckPlan.new windows).total p u db clock q =
      volume Check.count (w.reaches clock.secs) log := by
  obtain ⟨r, hslot, _⟩ := CheckPlan.new_served windows hq
  have hsize := (CheckPlan.slots_getElem?.mp hslot).1
  have hcounted := planned_counted hvalid ht hlog hlater hq hspan hslot
  unfold CheckPlan.total
  rw [List.getD_eq_getElem?_getD, hsize, Option.getD_some]
  dsimp only
  rw [windowTotal_parseFields, zero_add, hcounted]

/-- The sender's checks among the calls run under the plan they were made with. -/
theorem underOnePlan_of_calls (hvalid : ∀ w ∈ windows, w.Valid)
    (hplans : ∀ call ∈ calls, call.isFor p u → call.plan = CheckPlan.new windows)
    (hclocks : calls.Pairwise (fun earlier later => earlier.clock ≤ later.clock)) :
    UnderOnePlan windows (calls.filterMap (SaslCall.check p u)) where
  valid := hvalid
  plans c hc := by
    obtain ⟨call, hcall, hcheck⟩ := List.mem_filterMap.mp hc
    obtain ⟨hfor, _, rfl⟩ := SaslCall.check_eq_some hcheck
    exact hplans call hcall hfor
  clocks := by
    apply hclocks.filterMap
    intro call call' hle c hc c' hc'
    obtain ⟨_, _, rfl⟩ := SaslCall.check_eq_some hc
    obtain ⟨_, _, rfl⟩ := SaslCall.check_eq_some hc'
    exact hle

/-- The total of a shorter window is never larger than that of a longer one. -/
theorem total_mono (hvalid : ∀ w ∈ windows, w.Valid)
    (hcalls : ∀ call ∈ calls, call.isFor p u →
      call.plan = CheckPlan.new windows ∧ call.nowOverride = none)
    (hclocks : calls.Pairwise (fun earlier later => earlier.clock ≤ later.clock)) {clock : Clock}
    (hlater : ∀ call ∈ calls, call.clock ≤ clock) {q q' : PlannedWindow}
    (hq : q ∈ (CheckPlan.new windows).windows) (hq' : q' ∈ (CheckPlan.new windows).windows)
    (hspan : q.spanSecs ≤ q'.spanSecs) :
    let db := (serveCalls Keyspace.empty calls).1
    (CheckPlan.new windows).total p u db clock q ≤
      (CheckPlan.new windows).total p u db clock q' := by
  intro db
  have hunder := underOnePlan_of_calls hvalid (fun call hc hfor => (hcalls call hc hfor).1) hclocks
  set s := Session.serveAll p u (calls.filterMap (SaslCall.check p u)) with hs
  have hagree : AgreeOn (SaslKeys p u) db s.db :=
    serveCalls_session (fun call hc hfor => (hcalls call hc hfor).2)
  have ht : Tracks p u s.db s.accepted := Session.serveAll_tracks hunder.orderly
  have hpast : ∀ e ∈ s.accepted, e.clock ≤ clock := by
    intro e he
    obtain ⟨call, hcall, hcheck⟩ := List.mem_filterMap.mp (Session.mem_of_accepted he)
    obtain ⟨_, _, rfl⟩ := SaslCall.check_eq_some hcheck
    exact hlater call hcall
  have hsame : ∀ window, (CheckPlan.new windows).total p u db clock window =
      (CheckPlan.new windows).total p u s.db clock window := by
    intro window
    unfold CheckPlan.total
    dsimp only
    rw [Db.view_congr (hagree _ ⟨_, rfl⟩) clock]
  obtain ⟨w, hw, hws, _⟩ := (CheckPlan.new_represents windows).origin q hq
  obtain ⟨w', hw', hws', _⟩ := (CheckPlan.new_represents windows).origin q' hq'
  rw [hsame, hsame, total_eq hvalid ht hunder.accepted_plan hpast hq hws,
    total_eq hvalid ht hunder.accepted_plan hpast hq' hws']
  apply volume_mono (fun e _ => e.count_nonneg)
  intro e _ he
  exact Window.reaches_of_shorter (by omega) he

end OnePlan

/-- A window that is no longer than another one of its rule and allows no fewer recipients can
be taken out of the rule without changing any answer. In every store that calls under one plan
leave behind, a shorter window of the plan counts no more than a longer one. -/
theorem dominated_window_redundant (ruleIndex : ℕ) (windows : List Window)
    (hvalid : validateWindows ruleIndex windows = .ok ()) (p u : String) :
    (∀ (i j : ℕ) (w w' : Window), i ≠ j → windows[i]? = some w → windows[j]? = some w' →
      (w.duration < w'.duration ∨ w.duration = w'.duration) → w'.count ≤ w.count →
      ∀ requests : List (Clock × UInt32),
        requests.Pairwise (fun earlier later => earlier.1 ≤ later.1) →
        let checks (rule : List Window) : List Check :=
          requests.map (fun request => ⟨request.1, request.2, CheckPlan.new rule⟩)
        (Session.serveAll p u (checks windows)).answers.reverse.map Prod.snd =
          (Session.serveAll p u (checks (windows.eraseIdx i))).answers.reverse.map Prod.snd) ∧
    ∀ calls : List SaslCall,
      (∀ call ∈ calls, call.isFor p u →
        call.plan = CheckPlan.new windows ∧ call.nowOverride = none) →
      calls.Pairwise (fun earlier later => earlier.clock ≤ later.clock) →
      ∀ clock, (∀ call ∈ calls, call.clock ≤ clock) →
      ∀ q ∈ (CheckPlan.new windows).windows, ∀ q' ∈ (CheckPlan.new windows).windows,
        q.spanSecs ≤ q'.spanSecs →
        let db := (serveCalls Keyspace.empty calls).1
        (CheckPlan.new windows).total p u db clock q ≤
          (CheckPlan.new windows).total p u db clock q' := by
  have hwindows : ∀ w ∈ windows, w.Valid := ((validateWindows_ok_iff _ _).mp hvalid).2
  constructor
  · intro i j w w' hij hw hw' hduration hcount requests hclocks checks
    have hsecs : w.duration.secs ≤ w'.duration.secs := by
      rcases hduration with hlt | heq
      · have := (Duration.lt_iff _ _).mp hlt
        omega
      · rw [heq]
    have hlimits : w'.count.toNat ≤ w.count.toNat := hcount
    have hunder : ∀ rule : List Window, (∀ x ∈ rule, x.Valid) →
        UnderOnePlan rule (checks rule) := by
      intro rule hrule
      refine ⟨hrule, ?_, ?_⟩
      · intro c hc
        obtain ⟨request, _, rfl⟩ := List.mem_map.mp hc
        rfl
      · exact List.pairwise_map.mpr hclocks
    have hrequests : (checks windows).map Check.request =
        (checks (windows.eraseIdx i)).map Check.request := by
      simp only [checks, List.map_map]
      rfl
    have hserve : Naive.serve windows = Naive.serve (windows.eraseIdx i) := by
      funext s request
      unfold Naive.serve
      rw [Naive.accepts_eraseIdx hij hw hw' hsecs hlimits]
    have hnaive := (serveAll_naive (p := p) (u := u) (hunder windows hwindows)).2
    have hnaive' := (serveAll_naive (p := p) (u := u) (hunder (windows.eraseIdx i)
      (fun x hx => hwindows x (List.mem_of_mem_eraseIdx hx)))).2
    rw [hnaive, hnaive', hrequests]
    unfold Naive.serveAll
    rw [hserve]
  · intro calls hcalls hclocks clock hlater q hq q' hq' hspan
    exact total_mono hwindows hcalls hclocks hlater hq hq' hspan

/-- Nine a minute are never reached where the hour allows five: with and without them four
recipients are accepted and two more are not. -/
theorem dominated_window_redundant_hour :
    let checks (rule : List Window) : List Check :=
      [(⟨⟨0, by decide⟩, 4⟩ : Clock × UInt32), ⟨⟨30000000, by decide⟩, 2⟩].map
        (fun request => ⟨request.1, request.2, CheckPlan.new rule⟩)
    let answers (rule : List Window) :=
      (Session.serveAll "postfix-ratelimitd" "alice" (checks rule)).answers.reverse.map Prod.snd
    answers [⟨9, .fromSecs 60⟩, ⟨5, .fromSecs 3600⟩] = answers [⟨5, .fromSecs 3600⟩] ∧
      answers [⟨5, .fromSecs 3600⟩] = [.ok true, .ok false] := by
  intro checks answers
  constructor
  · exact (dominated_window_redundant 0 [⟨9, .fromSecs 60⟩, ⟨5, .fromSecs 3600⟩] (by decide)
      "postfix-ratelimitd" "alice").1 0 1 ⟨9, .fromSecs 60⟩ ⟨5, .fromSecs 3600⟩ (by decide) rfl rfl
      (by decide) (by decide) [⟨⟨0, by decide⟩, 4⟩, ⟨⟨30000000, by decide⟩, 2⟩]
      (by simp [Clock.le_iff])
  · decide +kernel

end PostfixRatelimitd
