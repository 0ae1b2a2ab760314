import PostfixRatelimitd.DaemonEnforcement

/-!
# What a sender is refused for

Under the same conditions under which a sender is held to a window, but with one plan throughout,
it is refused only for what it had: the messages that were let through and those whose check was
executed though its reply was lost, from no longer ago than the window and a fiftieth of it. Refused
messages, those of other senders and requests that never reached the server do not count.
-/
namespace PostfixRatelimitd
open Keyspace (AgreeOn left outcome)

/-- A message of user `u` was let through, or its check may have been executed without that. -/
def mayCount (u : String) (x : Delivery × Handled) : Bool :=
  x.1.request.saslUsername == some u && (x.2.action == actionDunno || x.1.fault == .replyLost)

namespace Delivery
variable {p u : String} {d : Delivery} {c : Check} {db db' : Db}

/-- With its reply, a request that executes a check of the sender is answered by that. -/
theorem handle_answered (hmine : d.Enforced p u) (h : d.check u = some c)
    (hdb : AgreeOn (SaslKeys p u) db db') (hreply : d.fault ≠ .replyLost) :
    (d.handle db).1 = answer d.config (outcome ((runCheck p u c).run db')) := by
  unfold check at h
  split_ifs at h with hskip
  simp only [not_or, not_not, Bool.not_eq_true] at hskip
  obtain ⟨hstate, hname, hsent⟩ := hskip
  obtain ⟨n, hcount, rfl⟩ := Option.map_eq_some_iff.mp h
  obtain ⟨rfl, _, _⟩ := hmine hname
  have hfault : d.fault = .none := by
    cases hfault : d.fault with
    | none => rfl
    | notSent => exact absurd hfault hsent
    | replyLost => exact absurd hfault hreply
  have hown := SaslCall.run_own (p := d.limiter.keyPrefix) (u := u)
    ⟨d.limiter, u, n, d.config.planFor u, none, d.clock, .none⟩ (by simp [SaslCall.isFor]) hdb
  have hhandle : (d.handle db).1 = answer d.config (outcome ((d.limiter.checkSasl u n
      (d.config.planFor u) none d.clock d.fault).run db)) := by
    unfold handle handleRequest
    rw [if_neg (by simp [hstate]), hname, hcount]
    rfl
  rw [hhandle, hfault]
  exact congrArg (answer d.config) hown.1

theorem rateLimited_ne_error {config : Config} (hdefer : config.onRedisError = .defer)
    (e : RedisError) : (answer config (.error e)).action ≠ actionRateLimited := by
  have hunavailable : actionServiceUnavailable ≠ actionRateLimited := by decide
  unfold answer
  rw [hdefer]
  exact hunavailable

/-- Whoever is refused had a check executed and its reply delivered. -/
theorem checked_of_refused (hmine : d.Enforced p u) (hname : d.request.saslUsername = some u)
    (h : (d.handle db).1.action = actionRateLimited) :
    (∃ c, d.check u = some c) ∧ d.fault ≠ .replyLost := by
  obtain ⟨_, hkeys, hdefer⟩ := hmine hname
  have hmisconfigured : misconfigured.action ≠ actionRateLimited := by decide
  unfold handle handleRequest at h
  split_ifs at h with hstate
  · exact absurd h hmisconfigured
  rw [hname] at h
  dsimp only at h
  cases hcount : d.request.recipientCount with
  | none =>
    rw [hcount] at h
    exact absurd h hmisconfigured
  | some n =>
    rw [hcount] at h
    dsimp only at h
    unfold Request.nowOverride at h
    cases hfault : d.fault with
    | none =>
      refine ⟨⟨⟨d.clock, n, d.config.planFor u⟩, ?_⟩, by simp⟩
      unfold check
      rw [if_neg (by simp [hstate, hname, hfault]), hcount]
      rfl
    | notSent =>
      rw [hfault, checkSasl_notSent d.limiter u n d.clock hkeys db] at h
      exact absurd h (rateLimited_ne_error hdefer _)
    | replyLost =>
      rw [hfault, checkSasl_replyLost hkeys] at h
      exact absurd h (rateLimited_ne_error hdefer _)

end Delivery

theorem Session.reply_eq (p u : String) (s : Session) (c : Check) :
    s.reply p u c = outcome ((runCheck p u c).run s.db) := by
  unfold reply
  cases (runCheck p u c).run s.db <;> rfl

theorem Session.serve_accepted_of_not_ok {p u : String} {s : Session} {c : Check}
    (h : outcome ((runCheck p u c).run s.db) ≠ .ok true) :
    (s.serve p u c).accepted = s.accepted := by
  unfold serve
  cases hr : (runCheck p u c).run s.db with
  | error e db => rfl
  | ok allowed db =>
    cases allowed with
    | false => rfl
    | true => exact absurd (by rw [hr]; rfl) h

/-! ## One database -/

/-- Each decision was made on the database that the deliveries before it left behind. -/
theorem serviceOf_handled {deliveries : List Delivery} {newer older : List (Delivery × Handled)}
    {y : Delivery × Handled} (h : (serviceOf deliveries).handled = newer ++ y :: older) :
    ∃ before after, deliveries = before ++ y.1 :: after ∧ older = (serviceOf before).handled ∧
      y.2 = (y.1.handle (serviceOf before).db).1 := by
  induction deliveries using List.reverseRecOn generalizing newer with
  | nil =>
    have hnil : ([] : List (Delivery × Handled)) = newer ++ y :: older := h
    simp at hnil
  | append_singleton deliveries d ih =>
    rw [serviceOf_snoc] at h
    have hcons : (d, (d.handle (serviceOf deliveries).db).1) :: (serviceOf deliveries).handled =
        newer ++ y :: older := h
    cases newer with
    | nil =>
      obtain ⟨rfl, rfl⟩ := List.cons.inj hcons
      exact ⟨deliveries, [], rfl, rfl, rfl⟩
    | cons z newer =>
      obtain ⟨before, after, rfl, holder, hy⟩ := ih (List.cons.inj hcons).2
      exact ⟨before, after ++ [d], by simp, holder, hy⟩

/-- What the sender's executed checks recorded are messages of its that may count. -/
theorem recorded_le_mayCount {p u : String} {deliveries : List Delivery}
    (hmine : ∀ d ∈ deliveries, d.Enforced p u) (pick : ℤ → Bool) :
    volume Check.count (fun e => pick e.now)
        (Session.serveAll p u (deliveries.filterMap (Delivery.check u))).accepted ≤
      volume (fun x => x.1.recipients) (fun x => mayCount u x && pick x.1.now)
        (serviceOf deliveries).handled := by
  induction deliveries using List.reverseRecOn with
  | nil => exact le_rfl
  | append_singleton deliveries d ih =>
    have hbefore : ∀ x ∈ deliveries, x.Enforced p u :=
      fun x hx => hmine x (List.mem_append_left _ hx)
    have hd := hmine d (by simp)
    have hagree := (service_mirrors hbefore).1
    have hle := ih hbefore
    have hrecipients : 0 ≤ d.recipients := Int.natCast_nonneg _
    rw [serviceOf_snoc, List.filterMap_append]
    show _ ≤ volume _ _ ((d, (d.handle (serviceOf deliveries).db).1) ::
      (serviceOf deliveries).handled)
    rw [volume_cons]
    cases hcheck : d.check u with
    | none =>
      simp only [List.filterMap_cons, hcheck, List.filterMap_nil, List.append_nil]
      split_ifs <;> omega
    | some c =>
      simp only [List.filterMap_cons, hcheck, List.filterMap_nil, Session.serveAll_snoc]
      obtain ⟨_, _, hrecorded, hnow⟩ := d.handle_checked hd hcheck hagree
      by_cases haccepted : outcome ((runCheck p u c).run (Session.serveAll p u
          (deliveries.filterMap (Delivery.check u))).db) = .ok true
      · have hcounts : mayCount u (d, (d.handle (serviceOf deliveries).db).1) = true := by
          unfold mayCount
          by_cases hlost : d.fault = .replyLost
          · simp [hlost, (Delivery.check_spec hcheck).2.1]
          · have hdunno : (answer d.config (.ok true)).action = actionDunno := rfl
            simp [d.handle_answered hd hcheck hagree hlost, haccepted, hdunno,
              (Delivery.check_spec hcheck).2.1]
        rw [Session.serve_accepted_of_ok haccepted, volume_cons, hcounts, hrecorded, hnow,
          Bool.true_and]
        exact add_le_add le_rfl hle
      · rw [Session.serve_accepted_of_not_ok haccepted]
        split_ifs <;> omega

/-- Of the deliveries on one database those of a sender that is held to its windows are refused
only when what may count leaves them no room. -/
theorem refused_only_over_limit {windows : List Window} (hwindows : ∀ w ∈ windows, w.Valid)
    (hsome : windows ≠ []) {p u : String} {deliveries : List Delivery} {d : Delivery}
    (hmine : ∀ x ∈ deliveries ++ [d], x.request.saslUsername = some u →
      x.limiter.keyPrefix = p ∧ x.config.planFor u = CheckPlan.new windows ∧
        x.config.onRedisError = .defer)
    (hclocks : (deliveries ++ [d]).Pairwise (fun earlier later => earlier.clock ≤ later.clock))
    (hname : d.request.saslUsername = some u)
    (hrefused : (d.handle (serviceOf deliveries).db).1.action = actionRateLimited) :
    ∃ w ∈ windows, 50 * (bucketSize w.duration).secs ≤ w.duration.secs ∧
      (w.count.toNat : ℤ) < d.recipients + volume (fun x => x.1.recipients)
        (fun x => mayCount u x && decide
          (d.now - w.duration.secs - (bucketSize w.duration).secs < x.1.now ∧ x.1.now ≤ d.now))
          (serviceOf deliveries).handled := by
  obtain ⟨w, hw⟩ := List.exists_mem_of_ne_nil windows hsome
  have henforced : ∀ x ∈ deliveries ++ [d], x.Enforced p u := by
    intro x hx hmyname
    obtain ⟨hkeys, hplan, hdefer⟩ := hmine x hx hmyname
    exact ⟨hkeys, hplan ▸ CheckPlan.new_bucketSizes_ne_nil hw, hdefer⟩
  have hbefore : ∀ x ∈ deliveries, x.Enforced p u :=
    fun x hx => henforced x (List.mem_append_left _ hx)
  have hd := henforced d (by simp)
  obtain ⟨⟨c, hcheck⟩, hreply⟩ := Delivery.checked_of_refused hd hname hrefused
  have hagree := (service_mirrors hbefore).1
  have hanswer := d.handle_answered hd hcheck hagree hreply
  obtain ⟨_, _, hrecipients, hnow⟩ := d.handle_checked hd hcheck hagree
  have hchecks : UnderOnePlan windows (deliveries.filterMap (Delivery.check u) ++ [c]) := by
    have happend : deliveries.filterMap (Delivery.check u) ++ [c] =
        (deliveries ++ [d]).filterMap (Delivery.check u) := by
      simp [List.filterMap_append, hcheck]
    obtain ⟨hplans, hordered⟩ := checks_inOrder (fun plan => plan = CheckPlan.new windows)
      (fun x hx hmyname => (hmine x hx hmyname).2.1) hclocks
    rw [happend]
    exact ⟨hwindows, hplans, hordered⟩
  have hpast : ∀ e ∈ (Session.serveAll p u (deliveries.filterMap (Delivery.check u))).accepted,
      e.now ≤ c.now := fun e he =>
    Int.ofNat_le.mpr (Clock.secs_mono (hchecks.orderly.last.2 e (Session.mem_of_accepted he)))
  rcases hchecks.serve_iff (p := p) (u := u) with ⟨_, hreply, _⟩ | ⟨hover, _, _⟩
  · rw [Session.reply_eq] at hreply
    rw [hanswer, hreply] at hrefused
    have hdunno : actionDunno ≠ actionRateLimited := by decide
    exact absurd hrefused hdunno
  · push Not at hover
    obtain ⟨w, hw, hlt⟩ := hover
    refine ⟨w, hw, bucketSize_fits (hwindows w hw), ?_⟩
    have hreach : volume Check.count (w.reaches c.now)
          (Session.serveAll p u (deliveries.filterMap (Delivery.check u))).accepted ≤
        volume Check.count (fun e => decide
          (d.now - w.duration.secs - (bucketSize w.duration).secs < e.now ∧ e.now ≤ d.now))
          (Session.serveAll p u (deliveries.filterMap (Delivery.check u))).accepted := by
      apply volume_mono (fun e _ => e.count_nonneg)
      intro e he hr
      rw [hnow]
      exact decide_eq_true ⟨reaches_recent hr, hpast e he⟩
    have hcounted := recorded_le_mayCount hbefore (fun now => decide
      (d.now - w.duration.secs - (bucketSize w.duration).secs < now ∧ now ≤ d.now))
    rw [hrecipients]
    exact hlt.trans_le (add_le_add le_rfl (hreach.trans hcounted))

/-! ## Runs of the daemon -/

/-- A message of the sender was let through, or its check may have been executed without that. -/
def LimitedSender.mayCount (x : LimitedSender) (y : Dispatch × Handled) : Bool :=
  PostfixRatelimitd.mayCount x.user (y.1.delivery, y.2)

namespace DaemonSystem
variable {x : LimitedSender} {s : DaemonSystem}

/-- As long as a sender is held to the same windows in the same way, a message of its is refused
only when, with the messages before it that were let through or whose reply was lost, it is over the
limit of a window that is stretched by a fiftieth: over any run of the daemon, whatever other
senders sent, and however often the sender was refused before. -/
theorem daemon_spares (setup : ConnectionSetup) (config : Config) (s : DaemonSystem)
    (x : LimitedSender) (ruleIndex : ℕ) (windows : List Window)
    (hvalid : validateWindows ruleIndex windows = .ok ())
    (hplans : ∀ plan, x.plans plan → plan = CheckPlan.new windows) (hconfig : x.governs config)
    (h : Reachable (next setup) x.governed (start config) s)
    (newer older : List (Dispatch × Handled)) (y : Dispatch × Handled)
    (hhandled : s.databases.handled = newer ++ y :: older)
    (hname : y.1.delivery.request.saslUsername = some x.user)
    (hrefused : y.2.action = actionRateLimited) :
    ∃ w ∈ windows, 50 * (bucketSize w.duration).secs ≤ w.duration.secs ∧
      (w.count.toNat : ℤ) < y.1.delivery.recipients +
        volume (fun z => z.1.delivery.recipients) (fun z => x.mayCount z && decide
          (y.1.delivery.now - w.duration.secs - (bucketSize w.duration).secs <
            z.1.delivery.now ∧ z.1.delivery.now ≤ y.1.delivery.now)) older := by
  obtain ⟨hsome, hwindows⟩ := (validateWindows_ok_iff _ _).mp hvalid
  have henforces : s.Enforces x :=
    h.invariant (Enforces.start hconfig) (fun _ _ _ hi hok hnext => hi.step hok hnext)
  have hy : y ∈ s.databases.handled := by simp [hhandled]
  have hdatabase := (henforces.limits y hy hname).database
  -- The same decision among those on the sender's database.
  let mine := fun z : Dispatch × Handled => (z.1.delivery, z.2)
  let here := fun z : Dispatch × Handled => decide (z.1.database = x.database)
  have hsplit : (s.databases.service x.database).handled =
      (newer.filter here).map mine ++ mine y :: (older.filter here).map mine := by
    unfold Databases.service
    simp [hhandled, hdatabase, here, mine]
  have hserved := congrArg Service.handled (servedInOrder_reached h x.database)
  obtain ⟨before, after, hdeliveries, holder, hdecision⟩ :=
    serviceOf_handled (hserved.symm.trans hsplit)
  have hpart : (before ++ [y.1.delivery]).Sublist
      ((s.databases.service x.database).handled.map Prod.fst).reverse := by
    rw [hdeliveries]
    exact List.Sublist.append_left (List.singleton_sublist.mpr (by simp [mine])) _
  have hlimited : (y.1.delivery.handle (serviceOf before).db).1.action = actionRateLimited := by
    rw [← hrefused]
    exact congrArg Handled.action hdecision.symm
  have hmine : ∀ d ∈ before ++ [y.1.delivery], d.request.saslUsername = some x.user →
      d.limiter.keyPrefix = x.keyPrefix ∧ d.config.planFor x.user = CheckPlan.new windows ∧
        d.config.onRedisError = .defer := by
    intro d hd hmyname
    obtain ⟨hkeys, hplan, hdefer⟩ := henforces.mine d (hpart.subset hd) hmyname
    exact ⟨hkeys, hplans _ hplan, hdefer⟩
  obtain ⟨w, hw, hfiftieth, hover⟩ := refused_only_over_limit hwindows hsome hmine
    (List.Pairwise.sublist hpart henforces.inOrder) hname hlimited
  refine ⟨w, hw, hfiftieth, hover.trans_le (add_le_add le_rfl ?_)⟩
  rw [← holder, volume_map, volume_filter]
  apply volume_mono (fun z _ => Int.natCast_nonneg _)
  intro z _ hz
  exact (Bool.and_eq_true_iff.mp hz).2

/-- A second message within the minute is refused for the first one. -/
theorem daemon_spares_minute :
    let info : ConnectionInfo := ⟨.unix "/run/valkey.sock", 0, none, none, .resp2, none, none⟩
    let plan := CheckPlan.new [⟨1, .fromSecs 60⟩]
    let config : Config := ⟨info, "postfix-ratelimitd", .defer, true, "/run/policy.sock", none, [],
      plan⟩
    let x : LimitedSender := ⟨info.database, "postfix-ratelimitd", "alice", (· == plan)⟩
    let request : Request := ⟨fun k =>
      if k = "sasl_username" then some "alice"
      else if k = "recipient_count" then some "1" else none⟩
    let d : Dispatch :=
      ⟨info.database, request, config, ⟨"postfix-ratelimitd"⟩, ⟨0, by decide⟩, .none⟩
    let d' : Dispatch :=
      ⟨info.database, request, config, ⟨"postfix-ratelimitd"⟩, ⟨30000000, by decide⟩, .none⟩
    let first := Databases.empty.step d
    (1 : ℤ) < d'.delivery.recipients + volume (fun z => z.1.delivery.recipients)
      (fun z => x.mayCount z && decide (d'.delivery.now - 60 - 1 < z.1.delivery.now ∧
        z.1.delivery.now ≤ d'.delivery.now)) first.handled := by
  intro info plan config x request d d' first
  let s : DaemonSystem := { start config with databases := first }
  let t : DaemonSystem := { start config with databases := first.step d' }
  have hfirst : Reachable (next ⟨true, true⟩) x.governed (start config) s :=
    Reachable.start.step (a := .elsewhere d) (by decide +kernel) rfl
  have hrun : Reachable (next ⟨true, true⟩) x.governed (start config) t :=
    hfirst.step (a := .elsewhere d') (by decide +kernel) rfl
  obtain ⟨w, hw, _, hover⟩ := daemon_spares ⟨true, true⟩ config t x 0
    [⟨1, .fromSecs 60⟩] (by decide) (fun _ hplan => eq_of_beq hplan)
    (x.governs_iff.mpr ⟨rfl, rfl, by decide +kernel, rfl⟩) hrun [] first.handled
    (d', (d'.handle first.db).1) rfl rfl (by decide +kernel)
  obtain rfl := List.mem_singleton.mp hw
  have hbucket : (bucketSize (Window.mk 1 (.fromSecs 60)).duration).secs = 1 := by
    decide +kernel
  rw [hbucket] at hover
  exact hover

end DaemonSystem
end PostfixRatelimitd
