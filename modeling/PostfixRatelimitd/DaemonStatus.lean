import PostfixRatelimitd.ControlTool
import PostfixRatelimitd.DaemonEnforcement

/-!
# What is shown and what is decided

The control tool asks one task of the daemon and a policy connection is served by another; they
meet only in the state that reloads publish and in the database. While nothing of the sender is
decided in between, what is shown of it is what its next message is decided by.
-/
namespace PostfixRatelimitd
open Keyspace (AgreeOn left outcome)

/-! ## A query at one instant -/

/-- A log tracks what the sender's own keys hold. -/
theorem Tracks.of_agree {p u : String} {db db' : Db} {log : List Check}
    (hagree : AgreeOn (SaslKeys p u) db db') (h : Tracks p u db' log) : Tracks p u db log where
  sane b cell hcell := h.sane b cell ((hagree _ ⟨b, rfl⟩).symm.trans hcell)
  origin b cell hcell := h.origin b cell ((hagree _ ⟨b, rfl⟩).symm.trans hcell)
  upper b clock hlater pick := by
    rw [Db.view_congr (hagree _ ⟨b, rfl⟩) clock]
    exact h.upper b clock hlater pick
  lower b clock hlater select pick hkept := by
    rw [Db.view_congr (hagree _ ⟨b, rfl⟩) clock]
    exact h.lower b clock hlater select pick hkept

/-- The reported totals leave room for the message. -/
def LeavesRoom (statuses : List WindowStatus) (recipientCount : UInt32) : Prop :=
  ∀ status ∈ statuses,
    status.currentTotal.toNat + recipientCount.toNat ≤ status.limit.toNat

instance (statuses : List WindowStatus) (recipientCount : UInt32) :
    Decidable (LeavesRoom statuses recipientCount) :=
  inferInstanceAs (Decidable (∀ status ∈ statuses, _))

/-- Where a log tracks the sender's keys, what a query reports is what a message is decided by. -/
theorem reported_decides {p u : String} {db : Db} {log : List Check} {config : Config}
    {clock : Clock} (ht : Tracks p u db log) (hplan : (config.planFor u).Built) {request : Request}
    (hstate : wrongProtocolState request = false) (hname : request.saslUsername = some u)
    {n : UInt32} (hcount : request.recipientCount = some n) :
    let plan := config.planFor u
    let statuses := plan.windows.map (reported plan clock.secs (readAt p u plan clock db))
    (handleRequest request config ⟨p⟩ clock .none db).1.action =
      if LeavesRoom statuses n then actionDunno else actionRateLimited := by
  intro plan statuses
  have hwell := hplan.wellFormed
  have hread := ht.plan_readable hwell clock
  have hroom : Room (saslKey p u) clock plan db clock.secs n.toNat ↔ LeavesRoom statuses n := by
    unfold LeavesRoom
    rw [List.forall_mem_map]
    exact room_iff_reported hwell hread n
  have hhandle : (handleRequest request config ⟨p⟩ clock .none db).1 =
      answer config (outcome ((runCheck p u ⟨clock, n, plan⟩).run db)) := by
    unfold handleRequest
    rw [if_neg (by simp [hstate]), hname, hcount]
    rfl
  rw [hhandle]
  rcases run_runCheck p u ⟨clock, n, plan⟩ hwell (fun b => ht.view_sane b clock) with
    ⟨hfits, db', hrun, _⟩ | ⟨hfull, hrun⟩
  · rw [hrun, if_pos (hroom.mp hfits)]
    rfl
  · rw [hrun, if_neg (fun hleaves => hfull (hroom.mpr hleaves))]
    rfl

/-! ## Runs of the daemon -/

namespace DaemonSystem
variable {x : LimitedSender} {s : DaemonSystem}

/-- The sender's keys hold what its executed checks recorded. -/
theorem Enforces.tracks (h : s.Enforces x) (hserved : s.ServedInOrder)
    (hplans : ∀ plan, x.plans plan → plan.Built ∧ plan.bucketSizes ≠ []) :
    ∃ log, Tracks x.keyPrefix x.user (s.databases.db x.database) log := by
  have henforced : ∀ d ∈ ((s.databases.service x.database).handled.map Prod.fst).reverse,
      d.Enforced x.keyPrefix x.user := by
    intro d hd hname
    obtain ⟨hkeys, hplan, hdefer⟩ := h.mine d hd hname
    exact ⟨hkeys, (hplans _ hplan).2, hdefer⟩
  obtain ⟨hbuilt, hordered⟩ := checks_inOrder CheckPlan.Built
    (fun d hd hname => (hplans _ (h.mine d hd hname).2.1).1) h.inOrder
  have hdb := congrArg Service.db (hserved x.database)
  have hagree := (service_mirrors henforced).1
  rw [← hdb] at hagree
  exact ⟨_, Tracks.of_agree hagree
    (Session.serveAll_tracks ⟨fun c hc => (hbuilt c hc).wellFormed, hordered⟩)⟩

/-- In every state that the daemon reaches while a sender is held to plans of its, reloads among
them: what the control tool shows of the sender at an instant, by the state in force, are the
windows of its plan with the totals by which a message is decided at that instant under the same
state. It is let through if they leave room for its recipients and refused if they do not. -/
theorem shown_status_decides (setup : ConnectionSetup) (config : Config) (s : DaemonSystem)
    (x : LimitedSender) (hplans : ∀ plan, x.plans plan → plan.Built ∧ plan.bucketSizes ≠ [])
    (hconfig : x.governs config)
    (h : Reachable (next setup) x.governed (start config) s) (clock : Clock) :
    let state := s.reload.state
    let db := s.databases.db state.connectionInfo.database
    let moment : Moment := ⟨state, fun _ => some (clock, db)⟩
    ∃ statuses : List WindowStatus,
      List.Forall₂ (fun window status => status.spanSecs = window.spanSecs ∧
        status.limit = window.limit) (state.config.planFor x.user).windows statuses ∧
      (∀ codec formats output,
        (Command.limits (.sasl x.user)).Shows codec formats false moment output ↔
          output = printStatus formats x.user (.limited clock.secs statuses)) ∧
      ∀ request n, wrongProtocolState request = false → request.saslUsername = some x.user →
        request.recipientCount = some n →
        (handleRequest request state.config state.limiter clock .none db).1.action =
          if LeavesRoom statuses n then actionDunno else actionRateLimited := by
  intro state db moment
  have henforces : s.Enforces x :=
    h.invariant (Enforces.start hconfig) (fun _ _ _ hi hok hnext => hi.step hok hnext)
  obtain ⟨hgoverns, hdatabase, hkeys⟩ := henforces.reload.state
  obtain ⟨hbuilt, hsome⟩ := hplans _ (x.governs_iff.mp hgoverns).2.2.1
  obtain ⟨log, ht⟩ := henforces.tracks (servedInOrder_reached h) hplans
  have hdb : s.databases.db x.database = db := congrArg s.databases.db hdatabase.symm
  rw [hdb] at ht
  have hlimiter : state.limiter = ⟨x.keyPrefix⟩ := congrArg Limiter.mk hkeys
  let plan := state.config.planFor x.user
  let statuses := plan.windows.map
    (reported plan clock.secs (readAt x.keyPrefix x.user plan clock db))
  have hquery : queryStatus state.limiter.keyPrefix x.user (state.config.planFor x.user)
      moment.exchange = some (.ok (.limited clock.secs statuses)) := by
    rw [hlimiter]
    exact (queryStatus_const _ _ _ _ _).trans (computeSaslStatus_eq hbuilt.wellFormed hsome
      (ht.plan_readable hbuilt.wellFormed clock))
  refine ⟨statuses, ?_, ?_, ?_⟩
  · rw [List.forall₂_map_right_iff, List.forall₂_same]
    exact fun window _ => ⟨rfl, rfl⟩
  · intro codec formats output
    constructor
    · rintro ⟨status, hstatus, houtput⟩
      obtain rfl := Except.ok.inj (Option.some.inj (hquery.symm.trans hstatus))
      exact houtput
    · rintro rfl
      exact ⟨_, hquery, rfl⟩
  · intro request n hstate hname hcount
    rw [hlimiter]
    exact reported_decides ht hbuilt hstate hname hcount

/-- A user who has sent one of three messages a minute. -/
theorem shown_status_decides_minute :
    let info : ConnectionInfo := ⟨.unix "/run/valkey.sock", 0, none, none, .resp2, none, none⟩
    let plan := CheckPlan.new [⟨3, .fromSecs 60⟩]
    let config : Config := ⟨info, "postfix-ratelimitd", .defer, true, "/run/policy.sock", none, [],
      plan⟩
    let request : Request := ⟨fun k =>
      if k = "sasl_username" then some "alice"
      else if k = "recipient_count" then some "1" else none⟩
    let d : Dispatch :=
      ⟨info.database, request, config, ⟨"postfix-ratelimitd"⟩, ⟨0, by decide⟩, .none⟩
    let state : RuntimeState := ⟨config, ⟨"postfix-ratelimitd"⟩, info⟩
    let db := (Databases.empty.step d).db info.database
    let clock : Clock := ⟨30000000, by decide⟩
    ∃ statuses : List WindowStatus,
      List.Forall₂ (fun window status => status.spanSecs = window.spanSecs ∧
        status.limit = window.limit) plan.windows statuses ∧
      (∀ codec formats output, (Command.limits (.sasl "alice")).Shows codec formats false
          ⟨state, fun _ => some (clock, db)⟩ output ↔
        output = printStatus formats "alice" (.limited clock.secs statuses)) ∧
      ∀ request n, wrongProtocolState request = false → request.saslUsername = some "alice" →
        request.recipientCount = some n →
        (handleRequest request config ⟨"postfix-ratelimitd"⟩ clock .none db).1.action =
          if LeavesRoom statuses n then actionDunno else actionRateLimited := by
  intro info plan config request d state db clock
  let x : LimitedSender := ⟨info.database, "postfix-ratelimitd", "alice", (· == plan)⟩
  let s : DaemonSystem := { start config with databases := Databases.empty.step d }
  have hrun : Reachable (next ⟨true, true⟩) x.governed (start config) s :=
    Reachable.start.step (a := .elsewhere d) (by decide +kernel) rfl
  have hplans : ∀ plan, x.plans plan → plan.Built ∧ plan.bucketSizes ≠ [] := by
    intro plan' hplan
    have hvalid : validateWindows 0 [⟨3, .fromSecs 60⟩] = .ok () := by decide
    have hholds := CheckPlan.new_holdsTo hvalid (List.mem_singleton_self _)
    rw [eq_of_beq hplan]
    exact ⟨hholds.built, hholds.bucketSizes_ne_nil⟩
  exact shown_status_decides ⟨true, true⟩ config s x hplans
    (x.governs_iff.mpr ⟨rfl, rfl, by decide +kernel, rfl⟩) hrun clock

end DaemonSystem
end PostfixRatelimitd
