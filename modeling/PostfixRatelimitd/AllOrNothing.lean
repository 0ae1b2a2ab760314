import PostfixRatelimitd.Control
import PostfixRatelimitd.Daemon
import PostfixRatelimitd.SharedStore

/-!
# A check records everything or nothing

In every store that checks leave behind, the script either answers 0 and touches nothing,
or answers 1 and changes each key of its plan in the one way described here. No command of
its write phase can fail, so no key is recorded without the others. A policy request changes
the store only by such a script that answered 1.
-/
namespace PostfixRatelimitd
open Keyspace (left outcome)

/-- A recorded hash, field by field. The new bucket is never stale. -/
theorem find?_recorded {b : ℕ} (hb : 0 < b) (now recipientCount : ℤ) (r : ℕ) (h : Hash) (id : ℤ) :
    (recorded now recipientCount b r h).find? id =
      if id = now / (b : ℤ) then some ((h.find? id).getD 0 + recipientCount)
      else if (id + 1) * b ≤ now - r then none else h.find? id := by
  unfold recorded
  rw [Tally.find?_erase, Tally.find?_add]
  by_cases hnew : id = now / (b : ℤ)
  · have hkept : id ∉ staleIds b (now - r) (parseFields h.entries).buckets := by
      intro hmem
      have hstale := ((mem_staleIds h).mp hmem).2
      rw [hnew, counts_current hb now r] at hstale
      exact Bool.noConfusion hstale
    rw [if_neg hkept, if_pos hnew, if_pos hnew, ← hnew]
  · rw [if_neg hnew, if_neg hnew]
    by_cases hend : (id + 1) * (b : ℤ) ≤ now - r
    · rw [if_pos hend]
      by_cases hmem : id ∈ h.entries.map Prod.fst
      · have hstale : id ∈ staleIds b (now - r) (parseFields h.entries).buckets :=
          (mem_staleIds h).mpr ⟨hmem, by simpa [counts] using hend⟩
        rw [if_pos hstale]
      · rw [Tally.find?_eq_none hmem, ite_self]
    · have hkept : id ∉ staleIds b (now - r) (parseFields h.entries).buckets := by
        intro hmem
        have hstale := ((mem_staleIds h).mp hmem).2
        exact hend (by simpa [counts] using hstale)
      rw [if_neg hkept, if_neg hend]

namespace SaslCall

/-- An accepted script is not reported as a refusal. -/
theorem outcome_ne_refused {call : SaslCall} {db db' : Db}
    (hrun : call.script.run db = .ok 1 db') : outcome (call.run db) ≠ .ok false := by
  unfold run Limiter.checkSasl
  split_ifs with hempty
  · simp [outcome]
  · show outcome (EStateM.run (invokeAsync call.fault call.script >>= fun allowed =>
      pure (allowed == 1)) db) ≠ _
    rw [EStateM.run_bind]
    cases call.fault with
    | none =>
      rw [run_invokeAsync, hrun]
      simp [outcome]
    | notSent =>
      have hinvoke : (invokeAsync .notSent call.script).run db = .error .connection db := rfl
      simp [hinvoke, outcome]
    | replyLost =>
      rw [run_invokeAsync_replyLost]
      simp [outcome]

/-- A call under a built plan leaves a shared store alone, or its script answered 1. -/
theorem run_stored (call : SaslCall) {executed : List SaslCall} {db : Db}
    (hstored : Stored executed db) (hplan : call.plan.Built) :
    left (call.run db) = db ∨
      (call.script.run db = .ok 1 (left (call.run db)) ∧ outcome (call.run db) ≠ .ok false) := by
  rw [call.left_run]
  split_ifs with hran
  · rcases run_script hplan.wellFormed (fun b => hstored.view_sane call.clock (call.key b)) with
      ⟨_, db', hrun, _⟩ | ⟨_, hrun⟩
    · rw [hrun]
      exact .inr ⟨rfl, outcome_ne_refused hrun⟩
    · rw [hrun]
      exact .inl rfl
  · exact .inl rfl

end SaslCall

/-- How the ways to answer a check can be told apart. -/
theorem answer_cases (config : Config) (result : Except RedisError Bool) :
    (answer config result).action ≠ actionMisconfigured ∧
      (answer config result).counter ≠ .unauthenticated ∧
      ((answer config result).action = actionRateLimited → result = .ok false) := by
  have hdunno : actionDunno ≠ actionMisconfigured ∧ actionDunno ≠ actionRateLimited := by decide
  have hunavailable : actionServiceUnavailable ≠ actionMisconfigured ∧
      actionServiceUnavailable ≠ actionRateLimited := by decide
  have hlimited : actionRateLimited ≠ actionMisconfigured := by decide
  unfold answer
  cases result with
  | ok allowed =>
    cases allowed with
    | true => exact ⟨hdunno.1, by simp, fun h => absurd h hdunno.2⟩
    | false => exact ⟨hlimited, by simp, fun _ => rfl⟩
  | error e =>
    cases config.onRedisError with
    | defer => exact ⟨hunavailable.1, by simp, fun h => absurd h hunavailable.2⟩
    | permit => exact ⟨hdunno.1, by simp, fun h => absurd h hdunno.2⟩

/-- A request and a shared store. -/
theorem handleRequest_stored {executed : List SaslCall} {db : Db} (hstored : Stored executed db)
    (request : Request) {config : Config} (hconfig : config.Built) (limiter : Limiter)
    (clock : Clock) (fault : Fault) :
    let r := handleRequest request config limiter clock fault db
    (r.2 ≠ db → ∃ u n, request.saslUsername = some u ∧ request.recipientCount = some n ∧
      (SaslCall.script ⟨limiter, u, n, config.planFor u, request.nowOverride, clock, fault⟩).run
        db = .ok 1 r.2) ∧
    (r.1.action = actionMisconfigured ∨ r.1.action = actionRateLimited ∨
      r.1.counter = .unauthenticated → r.2 = db) := by
  unfold handleRequest
  by_cases hstate : wrongProtocolState request = true
  · rw [if_pos hstate]
    exact ⟨fun h => absurd rfl h, fun _ => rfl⟩
  · rw [if_neg hstate]
    cases request.saslUsername with
    | none => exact ⟨fun h => absurd rfl h, fun _ => rfl⟩
    | some u =>
      cases request.recipientCount with
      | none => exact ⟨fun h => absurd rfl h, fun _ => rfl⟩
      | some n =>
        let call : SaslCall :=
          ⟨limiter, u, n, config.planFor u, request.nowOverride, clock, fault⟩
        show (left (call.run db) ≠ db → _) ∧
          ((answer config (outcome (call.run db))).action = actionMisconfigured ∨
            (answer config (outcome (call.run db))).action = actionRateLimited ∨
              (answer config (outcome (call.run db))).counter = .unauthenticated →
            left (call.run db) = db)
        obtain ⟨hwired, hknown, hlimited⟩ := answer_cases config (outcome (call.run db))
        rcases call.run_stored hstored (hconfig.planFor u) with
          hsame | ⟨hscript, hanswered⟩
        · exact ⟨fun h => absurd hsame h, fun _ => hsame⟩
        · refine ⟨fun _ => ⟨u, n, rfl, rfl, hscript⟩, ?_⟩
          intro h
          rcases h with h | h | h
          · exact absurd h hwired
          · exact absurd (hlimited h) hanswered
          · exact absurd h hknown

/-- In every store that checks leave behind the script either touches nothing, or grows the
current bucket of each key, deletes exactly the fields that have aged out of it and renews
its expiry, and leaves every other key alone. A request changes the store only by a script
that answered 1. -/
theorem check_all_or_nothing (calls : List SaslCall) (hplans : ∀ call ∈ calls, call.plan.Built) :
    let db := (serveCalls Keyspace.empty calls).1
    (∀ (call : SaslCall) (ruleIndex : ℕ) (windows : List Window),
      validateWindows ruleIndex windows = .ok () → call.plan = CheckPlan.new windows →
      call.script.run db = .ok 0 db ∨
      ∃ db', call.script.run db = .ok 1 db' ∧
        (∀ i b r : ℕ, call.plan.bucketSizes[i]? = some b → call.plan.retentionSecs[i]? = some r →
          let h := db.view call.clock (call.key b)
          ¬(call.now / (b : ℤ) + 1) * b ≤ call.now - r ∧
          ∃ h', db' (call.key b) = some ⟨h', some (call.clock.millis + 1000 * (r + b))⟩ ∧
            ∀ id, h'.find? id =
              if id = call.now / (b : ℤ) then some ((h.find? id).getD 0 + call.count)
              else if (id + 1) * b ≤ call.now - r then none else h.find? id) ∧
        ∀ k, k ∉ call.plan.bucketSizes.map call.key → db' k = db k) ∧
    ∀ (request : Request) (config : Config) (limiter : Limiter) (clock : Clock) (fault : Fault),
      config.Built →
      let r := handleRequest request config limiter clock fault db
      (r.2 ≠ db → ∃ u n, request.saslUsername = some u ∧ request.recipientCount = some n ∧
        (SaslCall.script ⟨limiter, u, n, config.planFor u, request.nowOverride, clock, fault⟩).run
          db = .ok 1 r.2) ∧
      (r.1.action = actionMisconfigured ∨ r.1.action = actionRateLimited ∨
        r.1.counter = .unauthenticated → r.2 = db) := by
  intro db
  have hstored : Stored (calls.filter SaslCall.executed) db := serveCalls_stored hplans
  constructor
  · intro call ruleIndex windows hvalid hplan
    have hbuilt : call.plan.Built := .inr ⟨ruleIndex, windows, hvalid, hplan⟩
    have hsane : ∀ b, Sane (db.view call.clock (call.key b)) := by
      intro b
      exact hstored.view_sane call.clock (call.key b)
    rcases SaslCall.run_script hbuilt.wellFormed hsane with
      ⟨_, db', hrun, hdone, hframe⟩ | ⟨_, hrun⟩
    · refine .inr ⟨db', hrun, ?_, ?_⟩
      · intro i b r hsize hretention h
        have hslot : (b, r) ∈ call.plan.slots :=
          List.mem_of_getElem? (CheckPlan.slots_getElem?.mpr ⟨hsize, hretention⟩)
        have hb := call.plan.bucketSizes_pos b (CheckPlan.size_of_slot hslot)
        have hcurrent := counts_iff.mp (counts_current hb call.now r)
        exact ⟨by omega, _, hdone b r hslot, fun id => find?_recorded hb call.now call.count r h id⟩
      · intro k hk
        apply hframe k
        intro b hb hsame
        exact hk (hsame ▸ List.mem_map_of_mem hb)
    · exact .inl hrun
  · intro request config limiter clock fault hconfig
    exact handleRequest_stored hstored request hconfig limiter clock fault

/-- After a reload alice's next message is recorded: what has aged out of the minute is deleted,
the rest is kept. The one after that is refused and leaves the store as it is. -/
theorem check_all_or_nothing_reload :
    let before := CheckPlan.new [⟨3, .fromSecs 60⟩]
    let after := CheckPlan.new [⟨5, .fromSecs 60⟩]
    let limiter : Limiter := ⟨"postfix-ratelimitd"⟩
    let calls : List SaslCall :=
      [⟨limiter, "alice", 2, before, none, ⟨0, by decide⟩, .none⟩,
        ⟨limiter, "alice", 1, before, none, ⟨30000000, by decide⟩, .none⟩]
    let call : SaslCall := ⟨limiter, "alice", 2, after, none, ⟨62000000, by decide⟩, .none⟩
    let db := (serveCalls Keyspace.empty calls).1
    let config : Config := ⟨⟨.unix "/run/valkey.sock", 0, none, none, .resp2, none, none⟩,
      "postfix-ratelimitd", .defer, true, "/run/policy.sock", none, [], after⟩
    let request : Request := ⟨fun key => if key = "sasl_username" then some "alice"
      else if key = "recipient_count" then some "5" else none⟩
    let refused := handleRequest request config limiter ⟨62000000, by decide⟩ .none db
    (∃ db' h', call.script.run db = .ok 1 db' ∧
      db' (call.key 1) = some ⟨h', some (62000 + 1000 * (60 + 1))⟩ ∧
      [h'.find? 0, h'.find? 30, h'.find? 62] = [none, some 1, some 2] ∧
      ∀ k, k ∉ after.bucketSizes.map call.key → db' k = db k) ∧
    refused.1.action = actionRateLimited ∧ refused.2 = db := by
  intro before after limiter calls call db config request refused
  have hbefore : before.Built := .inr ⟨0, _, by decide, rfl⟩
  have hafter : after.Built := .inr ⟨0, _, by decide, rfl⟩
  have hplans : ∀ c ∈ calls, c.plan.Built := by simp [calls, hbefore]
  obtain ⟨hscript, hrequest⟩ := check_all_or_nothing calls hplans
  constructor
  · have hallowed : outcome (call.script.run db) = .ok 1 := by decide +kernel
    rcases hscript call 0 [⟨5, .fromSecs 60⟩] (by decide) rfl with
      hrefused | ⟨db', hrun, hfields, hframe⟩
    · rw [hrefused] at hallowed
      cases hallowed
    · obtain ⟨_, h', hcell, hfind⟩ := hfields 0 1 60 (by decide +kernel) (by decide +kernel)
      rw [show call.clock.millis = 62000 by decide] at hcell
      refine ⟨db', h', hrun, hcell, ?_, hframe⟩
      rw [hfind, hfind, hfind]
      decide +kernel
  · have hanswer : refused.1.action = actionRateLimited := by decide +kernel
    exact ⟨hanswer, (hrequest request config limiter _ .none ⟨by simp [config], hafter⟩).2
      (.inr (.inl hanswer))⟩

end PostfixRatelimitd
