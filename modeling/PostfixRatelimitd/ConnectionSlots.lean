import PostfixRatelimitd.Connections
import Mathlib.Data.UInt

/-!
# Slots are conserved

In every run the active connections are the tasks that hold a slot and the main loop while it
decides on one, so they never go below zero and never above the budget by more than one. The
log of a run accounts for each connection of the policy socket, counted once although reports
reset the counters at any moment.
-/
namespace PostfixRatelimitd

namespace ConnectionSystem

/-! ## Slots -/

section Slots
variable {ν : Type*}

/-- Each task that has not released its slot has one, the main loop has one while it decides,
and one that is let in finds room. -/
structure Slots (s : ConnectionSystem ν) : Prop where
  active : s.activeConnections.toNat = s.tasks.length + if s.main.holdsSlot then 1 else 0
  room : s.tasks.length + (if s.main.admitted then 1 else 0) ≤ 512

variable {s s' : ConnectionSystem ν}

theorem Slots.active_le (h : s.Slots) : s.activeConnections.toNat ≤ 513 := by
  have hactive := h.active
  have hroom := h.room
  split_ifs at hactive <;> omega

theorem Slots.add_one (h : s.Slots) :
    (s.activeConnections + 1).toNat = s.activeConnections.toNat + 1 := by
  have hle := h.active_le
  have hone : (1 : UInt64).toNat = 1 := rfl
  rw [UInt64.toNat_add, hone]
  exact Nat.mod_eq_of_lt (by omega)

theorem Slots.sub_one (hpos : 0 < s.activeConnections.toNat) :
    (s.activeConnections - 1).toNat = s.activeConnections.toNat - 1 := by
  have hone : (1 : UInt64).toNat = 1 := rfl
  rw [UInt64.toNat_sub_of_le, hone]
  rw [UInt64.le_iff_toNat_le, hone]
  omega

/-- A step that moves neither the main loop's slot nor a task's. -/
theorem Slots.of_eq (h : s.Slots) (hholds : s'.main.holdsSlot = s.main.holdsSlot)
    (hadmitted : s'.main.admitted = s.main.admitted) (htasks : s'.tasks.length = s.tasks.length)
    (hactive : s'.activeConnections = s.activeConnections) : s'.Slots where
  active := by rw [hholds, htasks, hactive]; exact h.active
  room := by rw [hadmitted, htasks]; exact h.room

/-- The guard of a task is dropped. -/
theorem Slots.release (h : s.Slots) {i : ℕ} (hi : i < s.tasks.length) : (s.release i).Slots := by
  have hactive := h.active
  have hroom := h.room
  have hlength := List.length_eraseIdx_of_lt hi
  have hsub := Slots.sub_one (s := s) (by omega)
  constructor
  · show (s.activeConnections - 1).toNat =
      (s.tasks.eraseIdx i).length + if s.main.holdsSlot then 1 else 0
    omega
  · show (s.tasks.eraseIdx i).length + (if s.main.admitted then 1 else 0) ≤ 512
    omega

/-- What the main loop's `fetch_add` finds. -/
theorem Slots.atLimit_iff (h : s.Slots) {accepted : Accepted}
    (hmain : s.main = .fetchAdd accepted) :
    maxConnections ≤ s.activeConnections ↔ s.tasks.length = 512 := by
  have hlimit : maxConnections.toNat = 512 := rfl
  have hactive := h.active
  have hroom := h.room
  simp only [hmain, AdmissionStep.holdsSlot, AdmissionStep.admitted, Bool.false_eq_true, if_false,
    add_zero] at hactive hroom
  rw [UInt64.le_iff_toNat_le, hlimit]
  omega

/-- The runtime drops polled tasks only, and their guards with them. -/
theorem dropTaskNext_polled {i : ℕ} (hok : s.pollsTasks (.dropTask i))
    (hnext : s.dropTaskNext i = some s') :
    s.tasks[i]?.any ConnectionTask.guarded = true ∧ i < s.tasks.length ∧ s' = s.release i := by
  unfold dropTaskNext at hnext
  split_ifs at hnext
  obtain ⟨task, htask, hs'⟩ := Option.map_eq_some_iff.mp hnext
  have hguard : task.guarded = true := by simpa [pollsTasks, htask] using hok
  rw [if_pos hguard] at hs'
  exact ⟨by simp [htask, hguard], (List.getElem?_eq_some_iff.mp htask).1, hs'.symm⟩

theorem finishNext_eq {i : ℕ} (hnext : s.finishNext i = some s') :
    i < s.tasks.length ∧ s' = s.release i := by
  unfold finishNext at hnext
  split_ifs at hnext with hguard
  obtain ⟨task, htask, _⟩ := (Option.any_eq_true _ _).mp hguard
  exact ⟨(List.getElem?_eq_some_iff.mp htask).1, (Option.some.inj hnext).symm⟩

end Slots

/-! ## Steps of no account -/

section Quiet
variable {ν : Type*}

/-- A step that leaves alone the main loop, the slots and the counters of connections. -/
structure Quiet (s s' : ConnectionSystem ν) : Prop where
  main : s'.main = s.main
  tasks : s'.tasks.length = s.tasks.length
  active : s'.activeConnections = s.activeConnections
  accepted : s'.stats .connectionsAccepted = s.stats .connectionsAccepted
  rejected : s'.stats .connectionsRejected = s.stats .connectionsRejected
  report : ∀ counter, .store counter ∈ s'.report →
    .store counter ∈ s.report ∨ counter = .misconfigured

variable {setup : ConnectionSetup} {s s' : ConnectionSystem ν}

theorem Quiet.slots (hquiet : Quiet s s') (h : s.Slots) : s'.Slots :=
  h.of_eq (by rw [hquiet.main]) (by rw [hquiet.main]) hquiet.tasks hquiet.active

theorem pollNext_quiet {i : ℕ} (hnext : pollNext s i = some s') : Quiet s s' := by
  obtain ⟨task, _, rfl⟩ := Option.map_eq_some_iff.mp hnext
  exact ⟨rfl, List.length_set, rfl, rfl, rfl, fun _ h => .inl h⟩

theorem tickNext_quiet (hnext : tickNext setup s = some s') : Quiet s s' := by
  unfold tickNext at hnext
  split_ifs at hnext
  obtain rfl := Option.some.inj hnext
  refine ⟨rfl, rfl, rfl, rfl, rfl, ?_⟩
  intro counter hmem
  right
  unfold reportStats at hmem
  split_ifs at hmem <;> simpa using hmem

end Quiet

section Steps
variable {ν : Type*} [AddCommMonoidWithOne ν] {setup : ConnectionSetup}
variable {s s' : ConnectionSystem ν}

theorem acceptErrorNext_quiet {accepted : Accepted}
    (hnext : acceptErrorNext setup s accepted = some s') : Quiet s s' := by
  unfold acceptErrorNext at hnext
  split_ifs at hnext
  obtain rfl := Option.some.inj hnext
  cases accepted with
  | policy => exact ⟨rfl, rfl, rfl, by simp [bumpPolicy, bump], by simp [bumpPolicy, bump],
      fun _ h => .inl h⟩
  | control => exact ⟨rfl, rfl, rfl, rfl, rfl, fun _ h => .inl h⟩

theorem countNext_quiet {i : ℕ} {counter : StatsCounter}
    (hnext : countNext s i counter = some s') : Quiet s s' := by
  unfold countNext at hnext
  split_ifs at hnext with hcounts
  obtain rfl := Option.some.inj hnext
  have haccepted : counter ≠ .connectionsAccepted := by
    rintro rfl
    exact absurd hcounts.2 (by decide)
  have hrejected : counter ≠ .connectionsRejected := by
    rintro rfl
    exact absurd hcounts.2 (by decide)
  exact ⟨rfl, rfl, rfl, Function.update_of_ne haccepted.symm _ _,
    Function.update_of_ne hrejected.symm _ _, fun _ h => .inl h⟩

theorem Slots.start : (ConnectionSystem.start : ConnectionSystem ν).Slots :=
  ⟨rfl, by simp [ConnectionSystem.start, AdmissionStep.admitted]⟩

theorem Slots.main (h : s.Slots) (hnext : s.mainNext = some s') : s'.Slots := by
  have hactive := h.active
  have hroom := h.room
  have hadd := h.add_one
  unfold mainNext at hnext
  cases hmain : s.main with
  | select => simp [hmain] at hnext
  | fetchAdd accepted =>
    have hlimit := h.atLimit_iff hmain
    simp only [hmain, Option.some.injEq] at hnext
    subst hnext
    simp only [hmain, AdmissionStep.holdsSlot, AdmissionStep.admitted, Bool.false_eq_true,
      if_false, add_zero] at hactive hroom
    by_cases hfull : maxConnections ≤ s.activeConnections
    · rw [if_pos hfull]
      constructor
      · show (s.activeConnections + 1).toNat = s.tasks.length + 1
        omega
      · show s.tasks.length + 0 ≤ 512
        omega
    · have hfree : s.tasks.length ≠ 512 := fun hall => hfull (hlimit.mpr hall)
      rw [if_neg hfull]
      constructor
      · show (s.activeConnections + 1).toNat = s.tasks.length + 1
        omega
      · show s.tasks.length + 1 ≤ 512
        omega
  | fetchSub accepted =>
    simp only [hmain, Option.some.injEq] at hnext
    subst hnext
    simp only [hmain, AdmissionStep.holdsSlot, if_true] at hactive
    have hsub := Slots.sub_one (s := s) (by omega)
    constructor
    · show (s.activeConnections - 1).toNat = s.tasks.length + 0
      omega
    · show s.tasks.length + 0 ≤ 512
      omega
  | refuse accepted =>
    simp only [hmain, Option.some.injEq] at hnext
    subst hnext
    exact h.of_eq (by simp [hmain, AdmissionStep.holdsSlot])
      (by simp [hmain, AdmissionStep.admitted]) rfl rfl
  | keep accepted =>
    simp only [hmain, Option.some.injEq] at hnext
    subst hnext
    exact h.of_eq (by simp [hmain, AdmissionStep.holdsSlot])
      (by simp [hmain, AdmissionStep.admitted]) rfl rfl
  | spawn accepted =>
    simp only [hmain, Option.some.injEq] at hnext
    subst hnext
    simp only [hmain, AdmissionStep.holdsSlot, AdmissionStep.admitted, if_true] at hactive hroom
    have hlength : (s.tasks ++ [(⟨accepted, false⟩ : ConnectionTask)]).length =
        s.tasks.length + 1 := by simp
    constructor
    · show s.activeConnections.toNat =
        (s.tasks ++ [(⟨accepted, false⟩ : ConnectionTask)]).length + 0
      omega
    · show (s.tasks ++ [(⟨accepted, false⟩ : ConnectionTask)]).length + 0 ≤ 512
      omega
  | draining =>
    simp only [hmain, Option.some.injEq] at hnext
    subst hnext
    exact h.of_eq (by simp [hmain, AdmissionStep.holdsSlot])
      (by simp [hmain, AdmissionStep.admitted]) rfl rfl
  | returned => simp [hmain] at hnext

theorem reportNext_keeps (hnext : reportNext s = some s') : (∃ step, s.report = step :: s'.report) ∧
    s'.main = s.main ∧ s'.tasks = s.tasks ∧ s'.activeConnections = s.activeConnections := by
  unfold reportNext at hnext
  cases hreport : s.report with
  | nil => simp [hreport] at hnext
  | cons step rest =>
    rw [hreport] at hnext
    cases step with
    | load | swap counter | store counter =>
      obtain rfl := Option.some.inj hnext
      exact ⟨⟨_, rfl⟩, rfl, rfl, rfl⟩

theorem Slots.step {a : Action} (h : s.Slots) (hok : s.pollsTasks a)
    (hnext : next setup s a = some s') : s'.Slots := by
  cases a with
  | accept accepted =>
    change acceptNext setup s accepted = some s' at hnext
    unfold acceptNext at hnext
    split_ifs at hnext with hselect
    obtain rfl := Option.some.inj hnext
    exact h.of_eq (by simp [hselect.1, AdmissionStep.holdsSlot])
      (by simp [hselect.1, AdmissionStep.admitted]) rfl rfl
  | acceptError accepted => exact (acceptErrorNext_quiet hnext).slots h
  | shutdown =>
    change shutdownNext s = some s' at hnext
    unfold shutdownNext at hnext
    split_ifs at hnext with hselect
    obtain rfl := Option.some.inj hnext
    exact h.of_eq (by simp [hselect, AdmissionStep.holdsSlot])
      (by simp [hselect, AdmissionStep.admitted]) rfl rfl
  | main => exact h.main hnext
  | poll i => exact (pollNext_quiet hnext).slots h
  | count i counter => exact (countNext_quiet hnext).slots h
  | finish i handlerEnd =>
    obtain ⟨hi, rfl⟩ := finishNext_eq hnext
    exact h.release hi
  | dropTask i =>
    obtain ⟨_, hi, rfl⟩ := dropTaskNext_polled hok hnext
    exact h.release hi
  | tick => exact (tickNext_quiet hnext).slots h
  | report =>
    obtain ⟨_, hmain, htasks, hactive⟩ := reportNext_keeps hnext
    exact h.of_eq (by rw [hmain]) (by rw [hmain]) (by rw [htasks]) hactive

end Steps

/-! ## What the log says of it -/

section Ledger
open scoped UInt64.CommRing
variable {ν : Type*} [AddCommMonoidWithOne ν]

/-- All that was ever counted, whether a report has taken it since or not. -/
def counted (s : ConnectionSystem ν) (log : List (SlotEvent ν)) (counter : StatsCounter) : ν :=
  (log.map (SlotEvent.amount counter)).sum + s.stats counter

/-- What the log says of tasks, of what the operations on the active connections found, and of
connections of the policy socket. -/
structure Ledger (s : ConnectionSystem ν) (log : List (SlotEvent ν)) : Prop where
  slots : s.Slots
  stores : ∀ counter, .store counter ∈ s.report → counter = .misconfigured
  tasks : log.countP (SlotEvent.isSpawned .policy) + log.countP (SlotEvent.isSpawned .control) =
    log.countP SlotEvent.isReleased + s.tasks.length
  fetchSubs : ∀ previous, .fetchSub previous ∈ log → 0 < previous.toNat
  gauges : ∀ activeConnections, .gauge activeConnections ∈ log → activeConnections.toNat ≤ 513
  handled : log.countP (SlotEvent.isAccepted .policy) =
    log.countP (SlotEvent.isHandled .policy) + if s.main.handlesPolicy then 1 else 0
  accepted : counted s log .connectionsAccepted =
    (log.countP (SlotEvent.isSpawned .policy) : ν) + if s.main = .spawn .policy then 1 else 0
  rejected : counted s log .connectionsRejected =
    (log.countP (SlotEvent.isRefused .policy) : ν)

/-- What a step and what is observed of it have to do with each other. -/
structure Accounts (s s' : ConnectionSystem ν) (observed : List (SlotEvent ν)) (amount : ν) :
    Prop where
  report : ∀ counter, .store counter ∈ s'.report →
    .store counter ∈ s.report ∨ counter = .misconfigured := by exact fun _ h => .inl h
  tasks : observed.countP (SlotEvent.isSpawned .policy) +
      observed.countP (SlotEvent.isSpawned .control) + s.tasks.length =
    observed.countP SlotEvent.isReleased + s'.tasks.length := by simp
  fetchSubs : ∀ previous, .fetchSub previous ∈ observed → 0 < previous.toNat := by simp
  gauges : ∀ activeConnections, .gauge activeConnections ∈ observed →
    activeConnections.toNat ≤ 513 := by simp
  handled : observed.countP (SlotEvent.isAccepted .policy) +
      (if s.main.handlesPolicy then 1 else 0) =
    observed.countP (SlotEvent.isHandled .policy) + if s'.main.handlesPolicy then 1 else 0
  bumped : counted s' observed .connectionsAccepted = s.stats .connectionsAccepted + amount
  accepted : (if s.main = .spawn .policy then 1 else 0) + amount =
    (observed.countP (SlotEvent.isSpawned .policy) : ν) + if s'.main = .spawn .policy then 1 else 0
  rejected : counted s' observed .connectionsRejected =
    s.stats .connectionsRejected + (observed.countP (SlotEvent.isRefused .policy) : ν)

variable {setup : ConnectionSetup} {s s' : ConnectionSystem ν} {log : List (SlotEvent ν)}

theorem Quiet.accounts (h : Quiet s s') : Accounts s s' [] 0 where
  report := h.report
  tasks := by simp [h.tasks]
  handled := by simp [h.main]
  bumped := by simp [counted, h.accepted]
  accepted := by simp [h.main]
  rejected := by simp [counted, h.rejected]

theorem acceptNext_accounts {accepted : Accepted} (hnext : acceptNext setup s accepted = some s') :
    Accounts s s' [.accepted accepted] 0 := by
  unfold acceptNext at hnext
  split_ifs at hnext with hselect
  obtain rfl := Option.some.inj hnext
  have hmain : s.main = .select := hselect.1
  exact {
    handled := by simp [AdmissionStep.handlesPolicy, hmain, List.countP_cons]
    bumped := by simp [counted]
    accepted := by simp [hmain]
    rejected := by simp [counted] }

theorem shutdownNext_accounts (hnext : shutdownNext s = some s') : Accounts s s' [] 0 := by
  unfold shutdownNext at hnext
  split_ifs at hnext with hmain
  obtain rfl := Option.some.inj hnext
  exact {
    handled := by simp [AdmissionStep.handlesPolicy, hmain]
    bumped := by simp [counted]
    accepted := by simp [hmain]
    rejected := by simp [counted] }

theorem release_accounts (h : s.Slots) {i : ℕ} (hi : i < s.tasks.length) :
    Accounts s (s.release i) [.released, .fetchSub s.activeConnections] 0 where
  tasks := by
    have hlength : (s.release i).tasks.length = s.tasks.length - 1 :=
      List.length_eraseIdx_of_lt hi
    show 0 + 0 + s.tasks.length = 1 + (s.release i).tasks.length
    omega
  fetchSubs previous hmem := by
    have hactive := h.active
    obtain rfl : previous = s.activeConnections := by simpa using hmem
    omega
  handled := rfl
  bumped := by simp [counted, release]
  accepted := by
    show (if s.main = .spawn .policy then 1 else 0) + 0 =
      ((0 : ℕ) : ν) + if s.main = .spawn .policy then 1 else 0
    simp
  rejected := by simp [counted, release]

theorem mainNext_accounts (h : s.Slots) (hnext : mainNext s = some s') :
    ∃ amount, Accounts s s' s.mainEvents amount := by
  have hactive := h.active
  unfold mainNext at hnext
  unfold mainEvents
  cases hmain : s.main with
  | select => simp [hmain] at hnext
  | fetchAdd accepted =>
    simp only [hmain, Option.some.injEq] at hnext
    subst hnext
    by_cases hfull : maxConnections ≤ s.activeConnections
    · exact ⟨0, {
        handled := by simp [AdmissionStep.handlesPolicy, hmain, hfull]
        bumped := by simp [counted]
        accepted := by simp [hmain, hfull]
        rejected := by simp [counted] }⟩
    · exact ⟨0, {
        handled := by simp [AdmissionStep.handlesPolicy, hmain, hfull]
        bumped := by simp [counted]
        accepted := by simp [hmain, hfull]
        rejected := by simp [counted] }⟩
  | fetchSub accepted =>
    simp only [hmain, AdmissionStep.holdsSlot, if_true] at hactive
    simp only [hmain, Option.some.injEq] at hnext
    subst hnext
    exact ⟨0, {
      fetchSubs := by simp [hactive]
      handled := by simp [AdmissionStep.handlesPolicy, hmain]
      bumped := by simp [counted]
      accepted := by simp [hmain]
      rejected := by simp [counted] }⟩
  | refuse accepted =>
    simp only [hmain, Option.some.injEq] at hnext
    subst hnext
    cases accepted with
    | policy | control => exact ⟨0, {
        handled := by simp [AdmissionStep.handlesPolicy, hmain]
        bumped := by simp [counted, bumpPolicy, bump]
        accepted := by simp [hmain]
        rejected := by simp [counted, bumpPolicy, bump] }⟩
  | keep accepted =>
    simp only [hmain, Option.some.injEq] at hnext
    subst hnext
    cases accepted with
    | policy => exact ⟨1, {
        handled := by simp [AdmissionStep.handlesPolicy, hmain]
        bumped := by simp [counted, bumpPolicy, bump]
        accepted := by simp [hmain]
        rejected := by simp [counted, bumpPolicy, bump] }⟩
    | control => exact ⟨0, {
        handled := by simp [AdmissionStep.handlesPolicy, hmain]
        bumped := by simp [counted, bumpPolicy]
        accepted := by simp [hmain]
        rejected := by simp [counted, bumpPolicy] }⟩
  | spawn accepted =>
    simp only [hmain, Option.some.injEq] at hnext
    subst hnext
    cases accepted with
    | policy | control => exact ⟨0, {
        tasks := by simp [add_comm]
        handled := by simp [AdmissionStep.handlesPolicy, hmain]
        bumped := by simp [counted]
        accepted := by simp [hmain]
        rejected := by simp [counted] }⟩
  | draining =>
    simp only [hmain, Option.some.injEq] at hnext
    subst hnext
    exact ⟨0, {
      handled := by simp [AdmissionStep.handlesPolicy, hmain]
      bumped := by simp [counted]
      accepted := by simp [hmain]
      rejected := by simp [counted] }⟩
  | returned => simp [hmain] at hnext

/-- What a report takes from a counter is observed; only a counter that nothing is said of is
reset without that. -/
theorem reportNext_accounts (h : s.Slots)
    (hstores : ∀ counter, .store counter ∈ s.report → counter = .misconfigured)
    (hnext : reportNext s = some s') : Accounts s s' s.reportEvents 0 := by
  obtain ⟨⟨step, hreport⟩, hmain, htasks, _⟩ := reportNext_keeps hnext
  have hrest : ∀ counter, .store counter ∈ s'.report →
      .store counter ∈ s.report ∨ counter = .misconfigured := by
    intro counter hmem
    rw [hreport]
    exact .inl (List.mem_cons_of_mem step hmem)
  unfold reportNext at hnext
  unfold reportEvents
  cases step with
  | load =>
    simp only [hreport, Option.some.injEq] at hnext ⊢
    have hstats : s'.stats = s.stats := by rw [← hnext]
    exact {
      report := hrest
      tasks := by simp [htasks]
      gauges := by simp [h.active_le]
      handled := by simp [hmain]
      bumped := by simp [counted, hstats]
      accepted := by simp [hmain]
      rejected := by simp [counted, hstats] }
  | swap counter =>
    simp only [hreport, Option.some.injEq] at hnext ⊢
    have hstats : s'.stats = Function.update s.stats counter 0 := by rw [← hnext]
    have hkept : ∀ c : StatsCounter, (if counter = c then s.stats counter else 0) +
        Function.update s.stats counter 0 c = s.stats c := by
      intro c
      by_cases hc : counter = c
      · simp [hc]
      · simp [hc, Function.update_of_ne (Ne.symm hc)]
    exact {
      report := hrest
      tasks := by simp [htasks]
      handled := by simp [hmain]
      bumped := by simpa [counted, hstats] using hkept _
      accepted := by simp [hmain]
      rejected := by simpa [counted, hstats] using hkept _ }
  | store counter =>
    obtain rfl : counter = .misconfigured := hstores counter (by simp [hreport])
    simp only [hreport, Option.some.injEq] at hnext ⊢
    have hstats : s'.stats = Function.update s.stats .misconfigured 0 := by rw [← hnext]
    exact {
      report := hrest
      tasks := by simp [htasks]
      handled := by simp [hmain]
      bumped := by simp [counted, hstats]
      accepted := by simp [hmain]
      rejected := by simp [counted, hstats] }

theorem step_accounts {a : Action} (h : Ledger s log) (hok : s.pollsTasks a)
    (hnext : next setup s a = some s') : ∃ amount, Accounts s s' (s.events a) amount := by
  cases a with
  | accept accepted => exact ⟨0, acceptNext_accounts hnext⟩
  | acceptError accepted => exact ⟨0, (acceptErrorNext_quiet hnext).accounts⟩
  | shutdown => exact ⟨0, shutdownNext_accounts hnext⟩
  | main => exact mainNext_accounts h.slots hnext
  | poll i => exact ⟨0, (pollNext_quiet hnext).accounts⟩
  | count i counter => exact ⟨0, (countNext_quiet hnext).accounts⟩
  | finish i handlerEnd =>
    obtain ⟨hi, rfl⟩ := finishNext_eq hnext
    exact ⟨0, release_accounts h.slots hi⟩
  | dropTask i =>
    obtain ⟨hguard, hi, rfl⟩ := dropTaskNext_polled hok hnext
    have hevents : s.events (.dropTask i) = [.released, .fetchSub s.activeConnections] :=
      if_pos hguard
    rw [hevents]
    exact ⟨0, release_accounts h.slots hi⟩
  | tick => exact ⟨0, (tickNext_quiet hnext).accounts⟩
  | report => exact ⟨0, reportNext_accounts h.slots h.stores hnext⟩

/-- What a step adds to a counter and to what was reported of it. -/
theorem counted_append {observed : List (SlotEvent ν)} {counter : StatsCounter} {amount : ν}
    (h : counted s' observed counter = s.stats counter + amount) :
    counted s' (observed ++ log) counter = counted s log counter + amount := by
  unfold counted at h ⊢
  rw [List.map_append, List.sum_append, add_comm (observed.map _).sum, add_assoc, h, add_assoc]

namespace Ledger

theorem start : Ledger (ConnectionSystem.start : ConnectionSystem ν) [] where
  slots := Slots.start
  stores counter h := by simp [ConnectionSystem.start] at h
  tasks := rfl
  fetchSubs _ h := by simp at h
  gauges _ h := by simp at h
  handled := by simp [ConnectionSystem.start, AdmissionStep.handlesPolicy]
  accepted := by simp [counted, ConnectionSystem.start]
  rejected := by simp [counted, ConnectionSystem.start]

theorem of_accounts {observed : List (SlotEvent ν)} {amount : ν} (h : Ledger s log)
    (hslots : s'.Slots) (hstep : Accounts s s' observed amount) : Ledger s' (observed ++ log) where
  slots := hslots
  stores counter hmem := (hstep.report counter hmem).elim (h.stores counter) id
  tasks := by
    have hbefore := h.tasks
    have hadded := hstep.tasks
    simp only [List.countP_append]
    omega
  fetchSubs previous hmem :=
    (List.mem_append.mp hmem).elim (hstep.fetchSubs previous) (h.fetchSubs previous)
  gauges active hmem := (List.mem_append.mp hmem).elim (hstep.gauges active) (h.gauges active)
  handled := by
    have hbefore := h.handled
    have hadded := hstep.handled
    simp only [List.countP_append]
    omega
  accepted := by
    rw [counted_append hstep.bumped, h.accepted, add_assoc, hstep.accepted, ← add_assoc,
      List.countP_append, Nat.cast_add, add_comm (observed.countP _ : ν)]
  rejected := by
    rw [counted_append hstep.rejected, h.rejected, List.countP_append, Nat.cast_add, add_comm]

theorem step {x x' : ConnectionSystem ν × List (SlotEvent ν)} {a : Action} (h : Ledger x.1 x.2)
    (hok : x.1.pollsTasks a) (hnext : recording (next setup) events x a = some x') :
    Ledger x'.1 x'.2 := by
  obtain ⟨hstep, hlog⟩ := recording_eq_some hnext
  obtain ⟨amount, haccounts⟩ := step_accounts h hok hstep
  rw [hlog]
  exact h.of_accounts (h.slots.step hok hstep) haccounts

theorem reached {x : ConnectionSystem ν × List (SlotEvent ν)}
    (h : Reachable (recording (next setup) events) (fun x a => x.1.pollsTasks a)
      (ConnectionSystem.start, []) x) : Ledger x.1 x.2 :=
  @Reachable.invariant _ _ _ _ _ _ (fun y => Ledger y.1 y.2) start
    (fun _ _ _ hi hok hnext => hi.step hok hnext) h

end Ledger

/-- The line of a report never shows more active connections than the budget and one. -/
theorem gauge_le {x : ConnectionSystem ν × List (SlotEvent ν)} {activeConnections : UInt64}
    (h : Reachable (recording (next setup) events) (fun x a => x.1.pollsTasks a)
      (ConnectionSystem.start, []) x) (hgauge : .gauge activeConnections ∈ x.2) :
    activeConnections.toNat ≤ 513 := (Ledger.reached h).gauges activeConnections hgauge

/-- In every run in which no task is dropped before it was polled, the active connections are
the tasks that were spawned and have not released their slots, and one more exactly while
the main loop has taken a slot and not given it back or away. They are never taken below
zero, at most 512 tasks are outstanding, and a connection is refused exactly when all of
them are. Every connection of the policy socket that the main loop is done with was
counted once, the one that is about to get its task already is, and no other ever is,
whatever reports have taken meanwhile; and this in any arithmetic of the counters. -/
theorem slots_conserved (setup : ConnectionSetup) (s : ConnectionSystem ν)
    (log : List (SlotEvent ν))
    (h : Reachable (recording (next setup) events) (fun x a => x.1.pollsTasks a)
      (ConnectionSystem.start, []) (s, log)) :
    log.countP (SlotEvent.isSpawned .policy) + log.countP (SlotEvent.isSpawned .control) =
        log.countP SlotEvent.isReleased + s.tasks.length ∧
      s.activeConnections.toNat = s.tasks.length + (if s.main.holdsSlot then 1 else 0) ∧
      (∀ previous, .fetchSub previous ∈ log → 0 < previous.toNat) ∧
      s.tasks.length ≤ 512 ∧
      (∀ accepted s', s.main = .fetchAdd accepted → next setup s .main = some s' →
        (s'.main = .fetchSub accepted ↔ s.tasks.length = 512)) ∧
      log.countP (SlotEvent.isAccepted .policy) =
        log.countP (SlotEvent.isHandled .policy) + (if s.main.handlesPolicy then 1 else 0) ∧
      counted s log .connectionsAccepted + counted s log .connectionsRejected =
        (log.countP (SlotEvent.isHandled .policy) : ν) +
          if s.main = .spawn .policy then 1 else 0 := by
  have hledger : Ledger s log := Ledger.reached h
  have hroom := hledger.slots.room
  refine ⟨hledger.tasks, hledger.slots.active, hledger.fetchSubs, by omega, ?_,
    hledger.handled, ?_⟩
  · intro accepted s' hmain hnext
    rw [← hledger.slots.atLimit_iff hmain]
    change mainNext s = some s' at hnext
    unfold mainNext at hnext
    simp only [hmain, Option.some.injEq] at hnext
    subst hnext
    by_cases hfull : maxConnections ≤ s.activeConnections
    · simp [hfull]
    · simp [hfull]
  · rw [hledger.accepted, hledger.rejected, add_right_comm, SlotEvent.countP_isHandled,
      Nat.cast_add, add_comm (log.countP (SlotEvent.isRefused .policy) : ν)]

/-- A handler of each socket, one of which panics, and a report in between, on the code's own
counters. -/
theorem slots_conserved_panic :
    let actions : List Action := [.accept .policy, .main, .main, .main, .accept .control, .main,
      .poll 0, .main, .main, .poll 1, .tick] ++ List.replicate 8 .report ++ [.finish 0 .panicked]
    ∃ (s : ConnectionSystem UInt64) (log : List (SlotEvent UInt64)),
      replay (recording (next ⟨true, true⟩) events) (fun x a => x.1.pollsTasks a) (start, [])
          actions = some (s, log) ∧
        s.activeConnections.toNat = s.tasks.length + (if s.main.holdsSlot then 1 else 0) ∧
        counted s log .connectionsAccepted + counted s log .connectionsRejected =
          (log.countP (SlotEvent.isHandled .policy) : UInt64) +
            if s.main = .spawn .policy then 1 else 0 := by
  intro actions
  obtain ⟨⟨s, log⟩, hreplay⟩ := Option.isSome_iff_exists.mp (show (replay
    (recording (next (ν := UInt64) ⟨true, true⟩) events) (fun x a => x.1.pollsTasks a) (start, [])
      actions).isSome = true from rfl)
  obtain ⟨_, hactive, _, _, _, _, hcounted⟩ :=
    slots_conserved ⟨true, true⟩ s log (Reachable.start.of_replay actions hreplay)
  exact ⟨s, log, hreplay, hactive, hcounted⟩

end Ledger
end ConnectionSystem
end PostfixRatelimitd
