import PostfixRatelimitd.Config
import PostfixRatelimitd.Protocol
import PostfixRatelimitd.Isolation
import PostfixRatelimitd.SlidingWindow

/-!
# Handling a policy request

`handleRequest` answers with an action and bumps one counter. Requests of all senders
reach the database through any number of instances and connections, and a check may
fail on the way there or on the way back. For one sender such a run does to its keys
what a run of its executed checks alone does, and with failures deferred a message is
let through only when its check was executed and accepted.
-/
namespace PostfixRatelimitd
open Keyspace (AgreeOn left outcome)

def actionDunno : String := "dunno"
def actionServiceUnavailable : String := "defer_if_permit Service temporarily unavailable"
def actionRateLimited : String := "defer_if_permit Recipient rate limit exceeded, retry later"
def actionMisconfigured : String :=
  "defer_if_permit Rate limit service misconfigured or broken, check " ++
    "smtpd_data_restrictions/smtpd_end_of_data_restrictions wiring - see the README"

def expectedProtocolStates : List String := ["DATA", "END-OF-MESSAGE"]

/-- The counters of one stats interval. -/
inductive StatsCounter
  | accepted
  | rejected
  | failedDeferred
  | failedPermitted
  | unauthenticated
  | malformed
  | misconfigured
  | connectionsAccepted
  | connectionsRejected
  | acceptErrors
  deriving DecidableEq, Repr

/-- The answer to a request, the counter it bumped, and the kind of the throttled log
line that goes with it, if any. -/
structure Handled where
  action : String
  counter : StatsCounter
  throttled : Option String
  deriving DecidableEq, Repr

def wiring : String := "smtpd_data_restrictions/smtpd_end_of_data_restrictions wiring"

def misconfigured : Handled := ⟨actionMisconfigured, .misconfigured, some wiring⟩

/-- The protocol state is given and is none at which recipients are final. -/
def wrongProtocolState (request : Request) : Bool :=
  request.protocolState.any (fun state => !expectedProtocolStates.contains state)

/-- Unauthenticated messages are let through; `config` decides whether that is logged. -/
def unauthenticated (config : Config) : Handled where
  action := actionDunno
  counter := .unauthenticated
  throttled := if config.warnOnUnauthenticated then some "unauthenticated request" else none

/-- What the result of a check is answered with. -/
def answer (config : Config) : Except RedisError Bool → Handled
  | .ok true => ⟨actionDunno, .accepted, none⟩
  | .ok false => ⟨actionRateLimited, .rejected, none⟩
  | .error _ =>
    match config.onRedisError with
    | .defer => ⟨actionServiceUnavailable, .failedDeferred, some "valkey error checking rate limit"⟩
    | .permit => ⟨actionDunno, .failedPermitted, some "valkey error checking rate limit"⟩

/-- Decide the policy action to return for one request. -/
def handleRequest (request : Request) (config : Config) (limiter : Limiter) (clock : Clock)
    (fault : Fault) (db : Db) : Handled × Db :=
  if wrongProtocolState request then (misconfigured, db)
  else
    match request.saslUsername with
    | none => (unauthenticated config, db)
    | some saslUsername =>
      match request.recipientCount with
      | none => (misconfigured, db)
      | some recipientCount =>
        let plan := config.planFor saslUsername
        let r := (limiter.checkSasl saslUsername recipientCount plan request.nowOverride clock
          fault).run db
        (answer config (outcome r), left r)

/-- One request reaching an instance, with what the environment adds to it. -/
structure Delivery where
  request : Request
  config : Config
  limiter : Limiter
  clock : Clock
  fault : Fault

namespace Delivery

def handle (d : Delivery) (db : Db) : Handled × Db :=
  handleRequest d.request d.config d.limiter d.clock d.fault db

/-- The server time at which the request is served. -/
def now (d : Delivery) : ℤ := d.clock.secs

/-- The recipients the message is for. -/
def recipients (d : Delivery) : ℤ := (d.request.recipientCount.map UInt32.toNat).getD 0

/-- The check of user `u` that the request has the script execute, if it does. -/
def check (u : String) (d : Delivery) : Option Check :=
  if wrongProtocolState d.request ∨ d.request.saslUsername ≠ some u ∨ d.fault = .notSent then none
  else d.request.recipientCount.map (fun n => ⟨d.clock, n, d.config.planFor u⟩)

end Delivery

/-- The database, and every request with its answer, newest first. -/
structure Service where
  db : Db
  handled : List (Delivery × Handled)

def Service.step (s : Service) (d : Delivery) : Service :=
  ⟨(d.handle s.db).2, (d, (d.handle s.db).1) :: s.handled⟩

/-- Requests served in the order in which they reach the database. -/
def serviceOf (deliveries : List Delivery) : Service :=
  deliveries.foldl Service.step ⟨Keyspace.empty, []⟩

theorem serviceOf_snoc (deliveries : List Delivery) (d : Delivery) :
    serviceOf (deliveries ++ [d]) = (serviceOf deliveries).step d := by
  simp [serviceOf]

/-! ## One sender's share of a run -/

section Fault
variable {limiter : Limiter} {u : String} {n : UInt32} {plan : CheckPlan} {clock : Clock}

/-- A call that never reached the server. -/
theorem checkSasl_notSent (limiter : Limiter) (u : String) (n : UInt32) (clock : Clock)
    (hkeys : plan.bucketSizes ≠ []) (db : Db) :
    (limiter.checkSasl u n plan none clock .notSent).run db = .error .connection db := by
  have hsome : ¬(plan.bucketSizes.isEmpty = true) := by simpa using hkeys
  unfold Limiter.checkSasl
  rw [if_neg hsome]
  rfl

theorem run_invokeAsync_replyLost (script : Script ℤ) (db : Db) :
    (invokeAsync .replyLost script).run db = .error .connection (left (script.run db)) := by
  show invokeAsync .replyLost script db = _
  unfold invokeAsync
  cases script.run db <;> rfl

/-- A lost reply leaves behind what the script did. -/
theorem checkSasl_replyLost (hkeys : plan.bucketSizes ≠ []) (db : Db) :
    (limiter.checkSasl u n plan none clock .replyLost).run db =
      .error .connection (left ((limiter.checkSasl u n plan none clock .none).run db)) := by
  have hsome : ¬(plan.bucketSizes.isEmpty = true) := by simpa using hkeys
  unfold Limiter.checkSasl
  rw [if_neg hsome, if_neg hsome]
  dsimp only
  rw [EStateM.run_bind, EStateM.run_bind, run_invokeAsync, run_invokeAsync_replyLost]
  cases (checkAndRecord clock (plan.bucketSizes.map (bucketKey limiter.keyPrefix
    (identity saslIdentityKind u))) ⟨n, none, plan⟩).run db <;> rfl

end Fault

namespace Delivery
variable {p u : String} {d : Delivery} {c : Check} {db db' : Db}

theorem check_spec (h : d.check u = some c) : c.clock = d.clock ∧
    d.request.saslUsername = some u ∧ c.plan = d.config.planFor u := by
  unfold check at h
  split_ifs at h with hskip
  simp only [not_or, not_not] at hskip
  obtain ⟨n, _, rfl⟩ := Option.map_eq_some_iff.mp h
  exact ⟨rfl, hskip.2.1, rfl⟩

/-- What is asked of the requests of one sender: they share the prefix and have a plan to
check, and a failed check defers them. -/
def Enforced (p u : String) (d : Delivery) : Prop :=
  d.request.saslUsername = some u → d.limiter.keyPrefix = p ∧
    (d.config.planFor u).bucketSizes ≠ [] ∧ d.config.onRedisError = .defer

theorem dunno_of_answer {config : Config} {r : Except RedisError Bool}
    (hdefer : config.onRedisError = .defer) (h : (answer config r).action = actionDunno) :
    r = .ok true := by
  have hlimited : actionRateLimited ≠ actionDunno := by decide
  have hunavailable : actionServiceUnavailable ≠ actionDunno := by decide
  match r with
  | .ok true => rfl
  | .ok false => exact absurd h hlimited
  | .error _ =>
    unfold answer at h
    rw [hdefer] at h
    exact absurd h hunavailable

/-- A request that executes no check of the sender leaves its keys alone, and does not
let one of its messages through. -/
theorem handle_unchecked (hmine : d.Enforced p u) (h : d.check u = none) (db : Db) :
    AgreeOn (SaslKeys p u) (d.handle db).2 db ∧
      ¬(d.request.saslUsername = some u ∧ (d.handle db).1.action = actionDunno) := by
  have hmisconfigured : misconfigured.action ≠ actionDunno := by decide
  unfold check at h
  unfold handle handleRequest
  by_cases hstate : wrongProtocolState d.request = true
  · rw [if_pos hstate]
    exact ⟨AgreeOn.refl _ _, fun hbad => hmisconfigured hbad.2⟩
  · rw [if_neg hstate]
    cases hname : d.request.saslUsername with
    | none => exact ⟨AgreeOn.refl _ _, fun hbad => by simp at hbad⟩
    | some u' =>
      cases hcount : d.request.recipientCount with
      | none => exact ⟨AgreeOn.refl _ _, fun hbad => hmisconfigured hbad.2⟩
      | some n =>
        by_cases hu : u' = u
        · subst hu
          obtain ⟨_, hkeys, hdefer⟩ := hmine hname
          have hfault : d.fault = .notSent := by
            by_contra hsent
            simp [hstate, hname, hsent, hcount] at h
          dsimp only
          have hrun := checkSasl_notSent d.limiter u' n d.clock hkeys db
          unfold Request.nowOverride
          rw [hfault, hrun]
          refine ⟨AgreeOn.refl _ _, fun hbad => ?_⟩
          cases dunno_of_answer hdefer hbad.2
        · refine ⟨?_, fun hbad => hu (Option.some.inj hbad.1)⟩
          exact SaslCall.run_other ⟨d.limiter, u', n, d.config.planFor u',
            d.request.nowOverride, d.clock, d.fault⟩ (by simp [SaslCall.isFor, hu]) db

/-- A request that executes a check of the sender does to its keys what the check does,
and lets the message through only if the check was accepted. -/
theorem handle_checked (hmine : d.Enforced p u) (h : d.check u = some c)
    (hdb : AgreeOn (SaslKeys p u) db db') :
    AgreeOn (SaslKeys p u) (d.handle db).2 (left ((runCheck p u c).run db')) ∧
      ((d.handle db).1.action = actionDunno → outcome ((runCheck p u c).run db') = .ok true) ∧
      d.recipients = c.count ∧ d.now = c.now := by
  unfold check at h
  split_ifs at h with hskip
  simp only [not_or, not_not, Bool.not_eq_true] at hskip
  obtain ⟨hstate, hname, hsent⟩ := hskip
  obtain ⟨n, hcount, rfl⟩ := Option.map_eq_some_iff.mp h
  obtain ⟨rfl, hkeys, hdefer⟩ := hmine hname
  have hrecipients : d.recipients = n.toNat := by simp [recipients, hcount]
  -- The check with no fault, in both databases.
  have hown := SaslCall.run_own (p := d.limiter.keyPrefix) (u := u)
    ⟨d.limiter, u, n, d.config.planFor u, none, d.clock, .none⟩ (by simp [SaslCall.isFor]) hdb
  have hhandle : d.handle db = (answer d.config (outcome ((d.limiter.checkSasl u n
      (d.config.planFor u) none d.clock d.fault).run db)), left ((d.limiter.checkSasl u n
      (d.config.planFor u) none d.clock d.fault).run db)) := by
    unfold handle handleRequest
    rw [if_neg (by simp [hstate]), hname, hcount]
    rfl
  refine ⟨?_, ?_, hrecipients, rfl⟩
  · rw [hhandle]
    cases hfault : d.fault with
    | none => exact hown.2
    | notSent => exact absurd hfault hsent
    | replyLost =>
      rw [checkSasl_replyLost hkeys]
      exact hown.2
  · intro hdunno
    rw [hhandle] at hdunno
    have hok := dunno_of_answer hdefer hdunno
    cases hfault : d.fault with
    | none =>
      rw [hfault] at hok
      exact hown.1.symm.trans hok
    | notSent => exact absurd hfault hsent
    | replyLost =>
      rw [hfault, checkSasl_replyLost hkeys] at hok
      cases hok

end Delivery

namespace Session
variable {p u : String}

theorem serve_db (s : Session) (c : Check) :
    (s.serve p u c).db = left ((runCheck p u c).run s.db) := by
  unfold serve
  cases (runCheck p u c).run s.db <;> rfl

theorem serve_accepted_of_ok {s : Session} {c : Check}
    (h : outcome ((runCheck p u c).run s.db) = .ok true) :
    (s.serve p u c).accepted = c :: s.accepted := by
  unfold serve
  cases hr : (runCheck p u c).run s.db with
  | error e db => simp [hr, outcome] at h
  | ok allowed db =>
    obtain rfl : allowed = true := by simpa [hr, outcome] using h
    rfl

theorem accepted_sublist_serve (s : Session) (c : Check) :
    s.accepted.Sublist (s.serve p u c).accepted := by
  unfold serve accepted
  cases (runCheck p u c).run s.db with
  | error e db => exact List.Sublist.refl _
  | ok allowed db =>
    cases allowed
    · exact List.Sublist.refl _
    · exact List.sublist_cons_self _ _

end Session

/-- A message of user `u` was let through. -/
def letThrough (u : String) (x : Delivery × Handled) : Bool :=
  x.1.request.saslUsername == some u && x.2.action == actionDunno

/-- The run of everybody's requests against the run of one sender's executed checks. -/
theorem service_mirrors {p u : String} {deliveries : List Delivery}
    (hmine : ∀ d ∈ deliveries, d.Enforced p u) :
    let s := serviceOf deliveries
    let t := Session.serveAll p u (deliveries.filterMap (Delivery.check u))
    AgreeOn (SaslKeys p u) s.db t.db ∧ ∀ pick : ℤ → Bool,
      volume (fun x => x.1.recipients) (fun x => letThrough u x && pick x.1.now) s.handled ≤
        volume Check.count (fun e => pick e.now) t.accepted := by
  induction deliveries using List.reverseRecOn with
  | nil => exact ⟨AgreeOn.refl _ _, fun pick => le_rfl⟩
  | append_singleton deliveries d ih =>
    obtain ⟨hagree, hsum⟩ := ih (fun x hx => hmine x (List.mem_append_left _ hx))
    have hd := hmine d (by simp)
    rw [serviceOf_snoc, List.filterMap_append]
    cases hcheck : d.check u with
    | none =>
      obtain ⟨hkeys, hno⟩ := d.handle_unchecked hd hcheck (serviceOf deliveries).db
      have hskip : letThrough u (d, (d.handle (serviceOf deliveries).db).1) = false := by
        by_contra hbad
        exact hno (by simpa [letThrough] using hbad)
      simp only [List.filterMap_cons, hcheck, List.filterMap_nil, List.append_nil]
      refine ⟨hkeys.trans hagree, ?_⟩
      intro pick
      show volume _ _ ((d, (d.handle (serviceOf deliveries).db).1) ::
        (serviceOf deliveries).handled) ≤ _
      rw [volume_cons, hskip]
      simpa using hsum pick
    | some c =>
      obtain ⟨hkeys, hdunno, hrecipients, hnow⟩ := d.handle_checked hd hcheck hagree
      simp only [List.filterMap_cons, hcheck, List.filterMap_nil, Session.serveAll_snoc]
      rw [Session.serve_db]
      refine ⟨hkeys, ?_⟩
      intro pick
      show volume _ _ ((d, (d.handle (serviceOf deliveries).db).1) ::
        (serviceOf deliveries).handled) ≤ _
      rw [volume_cons]
      dsimp only
      by_cases hthrough : letThrough u (d, (d.handle (serviceOf deliveries).db).1)
      · have haction : (d.handle (serviceOf deliveries).db).1.action = actionDunno := by
          unfold letThrough at hthrough
          exact of_decide_eq_true (Bool.and_eq_true_iff.mp hthrough).2
        rw [Session.serve_accepted_of_ok (hdunno haction), volume_cons, hthrough, hrecipients, hnow,
          Bool.true_and]
        exact add_le_add le_rfl (hsum pick)
      · have hskip : letThrough u (d, (d.handle (serviceOf deliveries).db).1) = false := by
          simpa using hthrough
        rw [hskip, Bool.false_and, if_neg Bool.false_ne_true, zero_add]
        exact (hsum pick).trans (volume_sublist (fun e _ => e.count_nonneg)
          (Session.accepted_sublist_serve _ c))

/-- No window is ever exceeded, in any closed interval of its length: not by the checks
that are executed and accepted, and with failures deferred not by the messages that are
let through, whatever else reaches the database and whatever goes wrong on the way. -/
theorem no_window_exceeded (ruleIndex : ℕ) (windows : List Window)
    (hvalid : validateWindows ruleIndex windows = .ok ()) (p u : String) :
    (∀ checks : List Check, (∀ c ∈ checks, c.plan = CheckPlan.new windows) →
      checks.Pairwise (fun earlier later => earlier.clock ≤ later.clock) →
      ∀ w ∈ windows, ∀ a : ℤ,
        volume Check.count (fun c => decide (a ≤ c.now ∧ c.now ≤ a + w.duration.secs))
          (Session.serveAll p u checks).accepted ≤ w.count.toNat) ∧
    ∀ deliveries : List Delivery,
      (∀ d ∈ deliveries, d.request.saslUsername = some u → d.limiter.keyPrefix = p ∧
        d.config.planFor u = CheckPlan.new windows ∧ d.config.onRedisError = .defer) →
      deliveries.Pairwise (fun earlier later => earlier.clock ≤ later.clock) →
      ∀ w ∈ windows, ∀ a : ℤ,
        volume (fun x => x.1.recipients)
          (fun x => letThrough u x && decide (a ≤ x.1.now ∧ x.1.now ≤ a + w.duration.secs))
            (serviceOf deliveries).handled ≤ w.count.toNat := by
  have hwindows : ∀ w ∈ windows, w.Valid := ((validateWindows_ok_iff _ _).mp hvalid).2
  constructor
  · intro checks hplans hclocks w hw a
    exact accepted_window_le ⟨hwindows, hplans, hclocks⟩ hw a
  · intro deliveries hmine hclocks w hw a
    have henforced : ∀ d ∈ deliveries, d.Enforced p u := by
      intro d hd hname
      obtain ⟨hpre, hplan, hdefer⟩ := hmine d hd hname
      exact ⟨hpre, hplan ▸ CheckPlan.new_bucketSizes_ne_nil hw, hdefer⟩
    have hchecks : UnderOnePlan windows (deliveries.filterMap (Delivery.check u)) := by
      constructor
      case valid => exact hwindows
      case plans =>
        intro c hc
        obtain ⟨d, hd, hcheck⟩ := List.mem_filterMap.mp hc
        obtain ⟨_, hname, hplan⟩ := Delivery.check_spec hcheck
        exact hplan.trans (hmine d hd hname).2.1
      case clocks =>
        apply hclocks.filterMap
        intro d d' hle c hc c' hc'
        rw [(Delivery.check_spec hc).1, (Delivery.check_spec hc').1]
        exact hle
    have hle := (service_mirrors henforced).2
      (fun now => decide (a ≤ now ∧ now ≤ a + w.duration.secs))
    exact hle.trans (accepted_window_le hchecks hw a)

/-- A retry after a lost reply does not get a second message through. -/
theorem no_window_exceeded_minute :
    let plan := CheckPlan.new [⟨1, .fromSecs 60⟩]
    let config : Config := ⟨⟨.unix "/run/valkey.sock", 0, none, none, .resp2, none, none⟩,
      "postfix-ratelimitd", .defer, true, "/run/policy.sock", none, [], plan⟩
    let request : Request := ⟨fun k =>
      if k = "sasl_username" then some "alice"
      else if k = "recipient_count" then some "1" else none⟩
    let deliveries : List Delivery :=
      [⟨request, config, ⟨"postfix-ratelimitd"⟩, ⟨0, by decide⟩, .replyLost⟩,
        ⟨request, config, ⟨"postfix-ratelimitd"⟩, ⟨30000000, by decide⟩, .none⟩]
    let checks : List Check := [⟨⟨0, by decide⟩, 1, plan⟩, ⟨⟨30000000, by decide⟩, 1, plan⟩]
    volume Check.count (fun c => decide (0 ≤ c.now ∧ c.now ≤ 0 + 60))
      (Session.serveAll "postfix-ratelimitd" "alice" checks).accepted ≤ 1 ∧
    volume (fun x => x.1.recipients)
      (fun x => letThrough "alice" x && decide (0 ≤ x.1.now ∧ x.1.now ≤ 0 + 60))
        (serviceOf deliveries).handled ≤ 1 := by
  intro plan config request deliveries checks
  have h := no_window_exceeded 0 [⟨1, .fromSecs 60⟩] (by decide) "postfix-ratelimitd" "alice"
  refine ⟨h.1 checks ?_ ?_ _ (List.mem_singleton_self _) 0,
    h.2 deliveries ?_ ?_ _ (List.mem_singleton_self _) 0⟩
  · simp [checks, plan]
  · simp [checks, Clock.le_iff]
  · simp [deliveries, config, Config.planFor, plan]
  · simp [deliveries, Clock.le_iff]

end PostfixRatelimitd
