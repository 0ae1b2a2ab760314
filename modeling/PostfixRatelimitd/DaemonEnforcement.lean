import PostfixRatelimitd.DaemonRuns
import PostfixRatelimitd.PlanChanges

/-!
# The windows of a sender over runs of the daemon

As long as every config that is read holds a sender to a window on the same database, reloads that
change anything else, parallel connections, lost replies and other instances that do the same
cannot get more of its messages through than the window allows.
-/
namespace PostfixRatelimitd

/-- A sender, where its messages are counted, and the plans that it may be checked under. -/
structure LimitedSender where
  database : Database
  keyPrefix : String
  user : String
  plans : CheckPlan → Bool

namespace LimitedSender
variable (x : LimitedSender)

/-- The config has a plan for the sender, and defers when that cannot be checked. -/
def governs (config : Config) : Bool :=
  config.redisConnectionInfo.database == x.database && config.redisKeyPrefix == x.keyPrefix &&
    x.plans (config.planFor x.user) && config.onRedisError == .defer

theorem governs_iff {config : Config} : x.governs config ↔
    config.redisConnectionInfo.database = x.database ∧ config.redisKeyPrefix = x.keyPrefix ∧
      x.plans (config.planFor x.user) ∧ config.onRedisError = .defer := by
  simp [governs, and_assoc]

/-- The state has a plan for the sender and the limiter to check it with. -/
structure GovernsState (state : RuntimeState) : Prop where
  config : x.governs state.config
  connection : state.connectionInfo.database = x.database
  limiter : state.limiter.keyPrefix = x.keyPrefix

/-- The sender's messages are decided under its plans. -/
structure GovernsDelivery (d : Dispatch) : Prop where
  database : d.database = x.database
  keyPrefix : d.delivery.limiter.keyPrefix = x.keyPrefix
  plan : x.plans (d.delivery.config.planFor x.user)
  defers : d.delivery.config.onRedisError = .defer

instance (d : Dispatch) : Decidable (x.GovernsDelivery d) :=
  decidable_of_iff (d.database = x.database ∧ d.delivery.limiter.keyPrefix = x.keyPrefix ∧
      x.plans (d.delivery.config.planFor x.user) ∧ d.delivery.config.onRedisError = .defer)
    ⟨fun ⟨h1, h2, h3, h4⟩ => ⟨h1, h2, h3, h4⟩, fun ⟨h1, h2, h3, h4⟩ => ⟨h1, h2, h3, h4⟩⟩

/-- The sender's message, if it is one, is decided under its plans. -/
def Limits (d : Dispatch) : Prop :=
  d.delivery.request.saslUsername = some x.user → x.GovernsDelivery d

instance (d : Dispatch) : Decidable (x.Limits d) := inferInstanceAs (Decidable (_ → _))

/-- The server's clock does not go back. -/
def onTime (s : Databases) (clock : Clock) : Bool :=
  (s.service x.database).handled.head?.all (fun last => last.1.clock ≤ clock)

/-- The steps of a run in which the sender is held to its plans: by every config that is read
and by the other instances, on a database whose clock does not go back. -/
def governed (s : DaemonSystem) : DaemonSystem.Action → Bool
  | .worker _ (.ok config) _ => x.governs config
  | .handle _ clock _ => x.onTime s.databases clock
  | .elsewhere d =>
    decide (x.Limits d) && (d.database != x.database || x.onTime s.databases d.delivery.clock)
  | _ => true

end LimitedSender

/-! ## Reloads -/

/-- What a worker is about to publish governs the sender. -/
def WorkerStep.Governed (x : LimitedSender) : WorkerStep → Prop
  | readConfig _ current => x.GovernsState current
  | connect _ _ newConfig => x.governs newConfig
  | store _ newState => x.GovernsState newState
  | load | loadFull _ | compare _ | clear _ => True

/-- The state in force, and whatever replaces it, governs the sender. -/
structure ReloadSystem.Governed (x : LimitedSender) (s : ReloadSystem) : Prop where
  state : x.GovernsState s.state
  workers : ∀ w ∈ s.workers, w.Governed x

namespace ReloadSystem
variable {x : LimitedSender} {s s' : ReloadSystem}

theorem afterRead_governed {generation : ℕ} {current : RuntimeState}
    {file : Except ConfigError Config} (hcurrent : x.GovernsState current)
    (hfile : ∀ config, file = .ok config → x.governs config) :
    (afterRead generation current file).Governed x := by
  unfold afterRead
  cases file with
  | error e => trivial
  | ok newConfig =>
    have hnew := hfile newConfig rfl
    dsimp only
    split_ifs
    · trivial
    · trivial
    · exact hnew
    · exact ⟨hnew, hcurrent.connection, hcurrent.limiter⟩

theorem Governed.worker (h : s.Governed x) {i : ℕ} {file : Except ConfigError Config}
    {connects : Bool} (hfile : ∀ config, file = .ok config → x.governs config)
    (hnext : s.workerNext i file connects = some s') : s'.Governed x := by
  obtain ⟨hstate, hworkers⟩ := h
  unfold workerNext at hnext
  split at hnext
  · cases hnext
  · obtain rfl := Option.some.inj hnext
    exact ⟨hstate, TaskPool.forall_set hworkers i trivial⟩
  · obtain rfl := Option.some.inj hnext
    exact ⟨hstate, TaskPool.forall_set hworkers i hstate⟩
  · rename_i generation current hw
    obtain rfl := Option.some.inj hnext
    have hcurrent : x.GovernsState current := hworkers _ (List.mem_of_getElem? hw)
    exact ⟨hstate, TaskPool.forall_set hworkers i (afterRead_governed hcurrent hfile)⟩
  · rename_i generation current newConfig hw
    obtain rfl := Option.some.inj hnext
    have hnew : x.governs newConfig := hworkers _ (List.mem_of_getElem? hw)
    refine ⟨hstate, TaskPool.forall_set hworkers i ?_⟩
    obtain ⟨hdatabase, hkeys, _, _⟩ := x.governs_iff.mp hnew
    split_ifs
    · exact ⟨hnew, hdatabase, hkeys⟩
    · trivial
  · rename_i generation newState hw
    obtain rfl := Option.some.inj hnext
    have hnew : x.GovernsState newState := hworkers _ (List.mem_of_getElem? hw)
    exact ⟨hnew, TaskPool.forall_set hworkers i trivial⟩
  · obtain rfl := Option.some.inj hnext
    refine ⟨hstate, TaskPool.forall_set hworkers i ?_⟩
    split_ifs <;> trivial
  · obtain rfl := Option.some.inj hnext
    exact ⟨hstate, TaskPool.forall_eraseIdx hworkers i⟩

theorem Governed.step (h : s.Governed x) {a : Action}
    (hfile : ∀ i config connects, a = .worker i (.ok config) connects → x.governs config)
    (hnext : s.next a = some s') : s'.Governed x := by
  cases a with
  | receive =>
    change s.receiveNext = some s' at hnext
    unfold receiveNext at hnext
    split_ifs at hnext
    obtain rfl := Option.some.inj hnext
    exact ⟨h.state, h.workers⟩
  | main =>
    change s.mainNext = some s' at hnext
    unfold mainNext at hnext
    split at hnext
    · cases hnext
    · obtain rfl := Option.some.inj hnext
      exact ⟨h.state, h.workers⟩
    · obtain rfl := Option.some.inj hnext
      exact ⟨h.state, h.workers⟩
    · obtain rfl := Option.some.inj hnext
      exact ⟨h.state, TaskPool.forall_snoc h.workers trivial⟩
  | worker i file connects =>
    exact h.worker (fun config hfile' => hfile i config connects (by rw [hfile'])) hnext

end ReloadSystem

/-! ## One database -/

/-- The checks that a sender's requests execute run in their order and under its plans. -/
theorem checks_inOrder (plans : CheckPlan → Prop) {u : String} {deliveries : List Delivery}
    (hplans : ∀ d ∈ deliveries, d.request.saslUsername = some u → plans (d.config.planFor u))
    (hclocks : deliveries.Pairwise (fun earlier later => earlier.clock ≤ later.clock)) :
    (∀ c ∈ deliveries.filterMap (Delivery.check u), plans c.plan) ∧
      (deliveries.filterMap (Delivery.check u)).Pairwise
        (fun earlier later => earlier.clock ≤ later.clock) := by
  refine ⟨?_, hclocks.filterMap _ ?_⟩
  · intro c hc
    obtain ⟨d, hd, hcheck⟩ := List.mem_filterMap.mp hc
    obtain ⟨_, hname, hplan⟩ := Delivery.check_spec hcheck
    exact hplan ▸ hplans d hd hname
  · intro d d' hle c hc c' hc'
    rw [(Delivery.check_spec hc).1, (Delivery.check_spec hc').1]
    exact hle

theorem CheckPlan.HoldsTo.bucketSizes_ne_nil {span limit : ℕ} {plan : CheckPlan}
    (h : plan.HoldsTo span limit) : plan.bucketSizes ≠ [] := by
  obtain ⟨q, hq, _⟩ := h.window
  obtain ⟨r, hslot, _⟩ := h.built.slot_of_window hq
  exact List.ne_nil_of_mem (CheckPlan.size_of_slot (List.mem_of_getElem? hslot))

/-- Of the deliveries on one database the messages of a sender that is held to a window stay
within it. -/
theorem letThrough_window_le {span limit : ℕ} {p u : String} {deliveries : List Delivery}
    (hmine : ∀ d ∈ deliveries, d.request.saslUsername = some u → d.limiter.keyPrefix = p ∧
      (d.config.planFor u).HoldsTo span limit ∧ d.config.onRedisError = .defer)
    (hclocks : deliveries.Pairwise (fun earlier later => earlier.clock ≤ later.clock)) (a : ℤ) :
    volume (fun y => y.1.recipients)
      (fun y => letThrough u y && decide (a ≤ y.1.now ∧ y.1.now ≤ a + span))
        (serviceOf deliveries).handled ≤ limit := by
  have henforced : ∀ d ∈ deliveries, d.Enforced p u := by
    intro d hd hname
    obtain ⟨hkeys, hplan, hdefer⟩ := hmine d hd hname
    exact ⟨hkeys, hplan.bucketSizes_ne_nil, hdefer⟩
  obtain ⟨hplans, hordered⟩ := checks_inOrder (CheckPlan.HoldsTo span limit)
    (fun d hd hname => (hmine d hd hname).2.1) hclocks
  have hmirrored := (service_mirrors henforced).2 (fun now => decide (a ≤ now ∧ now ≤ a + span))
  exact hmirrored.trans (AcrossPlans.accepted_window_le ⟨hplans, hordered⟩ a)

/-! ## Runs of the daemon -/

/-- A message of the sender was let through. -/
def LimitedSender.letThrough (x : LimitedSender) (y : Dispatch × Handled) : Bool :=
  PostfixRatelimitd.letThrough x.user (y.1.delivery, y.2)

namespace DaemonSystem
variable {x : LimitedSender} {setup : ConnectionSetup} {config : Config} {s s' : DaemonSystem}
  {a : Action}

/-- The sender is held to its plans: by the state in force and those to come, by the state that
each handler loaded, and in what was decided, on a database whose clock did not go back. -/
structure Enforces (x : LimitedSender) (s : DaemonSystem) : Prop where
  reload : s.reload.Governed x
  handlers : ∀ handler ∈ s.handlers, ∀ h, handler = some h →
    ∀ request current, h.step = .handleRequest request current → x.GovernsState current
  limits : ∀ y ∈ s.databases.handled, x.Limits y.1
  clocks : (s.databases.service x.database).handled.Pairwise
    (fun later earlier => earlier.1.clock ≤ later.1.clock)

namespace Enforces

theorem start (hconfig : x.governs config) : (start config).Enforces x := by
  obtain ⟨hdatabase, hkeys, _, _⟩ := x.governs_iff.mp hconfig
  exact {
    reload := ⟨⟨hconfig, hdatabase, hkeys⟩, by simp [DaemonSystem.start, ReloadSystem.start]⟩
    handlers := by simp [DaemonSystem.start]
    limits := by simp [DaemonSystem.start, Databases.empty]
    clocks := by simp [DaemonSystem.start, Databases.empty, Databases.service] }

/-- A handler loads the state in force, and a request that it is about to decide keeps the state
that was loaded for it. -/
theorem handlers_step (h : s.Enforces x) (hnext : next setup s a = some s') :
    ∀ handler ∈ s'.handlers, ∀ h, handler = some h →
      ∀ request current, h.step = .handleRequest request current → x.GovernsState current := by
  have hhandlers := h.handlers
  have heffect := next_effect hnext
  generalize s.events a = seen at heffect
  cases heffect with
  | aside hsame _ _ | elsewhere _ hsame _ _ =>
    rw [hsame]
    exact hhandlers
  | spawned handler _ hstart hsame _ =>
    rw [hsame]
    refine TaskPool.forall_snoc hhandlers ?_
    intro h' hh request current hstep
    obtain ⟨stream, rfl⟩ := hstart h' hh
    cases hstep
  | @moved i before after _ hi hmoves hsame _ =>
    rw [hsame]
    refine TaskPool.forall_set hhandlers i ?_
    rintro h' ⟨⟩ request current hstep
    cases hmoves with
    | load =>
      obtain ⟨_, rfl⟩ := HandlerStep.handleRequest.inj hstep
      exact h.reload.state
    | _ => cases hstep
  | decided hi _ hsame _ _ =>
    rw [hsame]
    refine TaskPool.forall_set hhandlers _ ?_
    rintro h' ⟨⟩ request current hstep
    cases hstep
  | ended _ _ hsame _ | dropped _ _ hsame _ =>
    rw [hsame]
    exact TaskPool.forall_eraseIdx hhandlers _

theorem reload_step (h : s.Enforces x) (hok : x.governed s a) (hnext : next setup s a = some s') :
    s'.reload.Governed x := by
  have hreload := (next_parts hnext).2
  cases a with
  | sighup | reloadMain => exact h.reload.step (by simp) hreload
  | worker i file connects =>
    refine h.reload.step ?_ hreload
    rintro _ config _ ⟨⟩
    exact hok
  | _ => exact hreload ▸ h.reload

/-- What is decided on the sender's database at a later time comes on top. -/
theorem clocks_step (hclocks : (s.databases.service x.database).handled.Pairwise
      (fun later earlier => earlier.1.clock ≤ later.1.clock)) {d : Dispatch}
    (hlater : d.database = x.database → x.onTime s.databases d.delivery.clock) :
    ((s.databases.step d).service x.database).handled.Pairwise
      (fun later earlier => earlier.1.clock ≤ later.1.clock) := by
  rw [Databases.service_step]
  split_ifs with hdatabase
  · refine List.pairwise_cons.mpr ⟨?_, hclocks⟩
    have hfirst := hlater hdatabase
    unfold LimitedSender.onTime at hfirst
    cases hhandled : (s.databases.service x.database).handled with
    | nil => simp
    | cons last older =>
      rw [hhandled] at hfirst hclocks
      have hlast : last.1.clock ≤ d.delivery.clock := by simpa using hfirst
      intro y hy
      rcases List.mem_cons.mp hy with rfl | hold
      · exact hlast
      · exact Nat.le_trans (List.rel_of_pairwise_cons hclocks hold) hlast
  · exact hclocks

theorem step (h : s.Enforces x) (hok : x.governed s a) (hnext : next setup s a = some s') :
    s'.Enforces x := by
  have hhandlers := h.handlers_step hnext
  have hreload := h.reload_step hok hnext
  have heffect := next_effect hnext
  generalize s.events a = seen at heffect
  cases heffect with
  | aside _ hdatabases _ | spawned _ _ _ _ hdatabases | moved _ _ _ hdatabases
  | ended _ _ _ hdatabases | dropped _ _ _ hdatabases =>
    exact ⟨hreload, hhandlers, hdatabases ▸ h.limits, hdatabases ▸ h.clocks⟩
  | @decided i handler clock fault d hi hd _ hdatabases haction =>
    subst haction
    obtain ⟨request, current, hstep, rfl⟩ := PolicyHandler.dispatch_eq_some hd
    have hcurrent := h.handlers _ (List.mem_of_getElem? hi) handler rfl request current hstep
    obtain ⟨_, _, hplan, hdefer⟩ := x.governs_iff.mp hcurrent.config
    refine ⟨hreload, hhandlers, ?_, ?_⟩
    · rw [hdatabases]
      refine List.forall_mem_cons.mpr ⟨?_, h.limits⟩
      exact fun _ => ⟨hcurrent.connection, hcurrent.limiter, hplan, hdefer⟩
    · rw [hdatabases]
      exact clocks_step h.clocks (fun _ => hok)
  | elsewhere d _ hdatabases haction =>
    subst haction
    obtain ⟨hlimits, hlater⟩ := Bool.and_eq_true_iff.mp hok
    refine ⟨hreload, hhandlers, ?_, ?_⟩
    · rw [hdatabases]
      exact List.forall_mem_cons.mpr ⟨of_decide_eq_true hlimits, h.limits⟩
    · rw [hdatabases]
      refine clocks_step h.clocks (fun hdatabase => ?_)
      simpa [hdatabase] using hlater

/-- The sender's deliveries on its database, under its plans. -/
theorem mine (h : s.Enforces x) :
    ∀ d ∈ ((s.databases.service x.database).handled.map Prod.fst).reverse,
      d.request.saslUsername = some x.user → d.limiter.keyPrefix = x.keyPrefix ∧
        x.plans (d.config.planFor x.user) ∧ d.config.onRedisError = .defer := by
  intro d hd hname
  obtain ⟨y, hy, rfl⟩ := List.mem_map.mp (List.mem_reverse.mp hd)
  obtain ⟨z, hz, rfl⟩ := List.mem_map.mp hy
  obtain ⟨_, hkeys, hplan, hdefer⟩ := h.limits z (List.mem_filter.mp hz).1 hname
  exact ⟨hkeys, hplan, hdefer⟩

theorem inOrder (h : s.Enforces x) :
    ((s.databases.service x.database).handled.map Prod.fst).reverse.Pairwise
      (fun earlier later => earlier.clock ≤ later.clock) := by
  rw [List.pairwise_reverse, List.pairwise_map]
  exact h.clocks

end Enforces

/-- All that was let through of the sender was let through on its database. -/
theorem volume_letThrough (hlimits : ∀ y ∈ s.databases.handled, x.Limits y.1) (pick : ℤ → Bool) :
    volume (fun y => y.1.delivery.recipients)
      (fun y => x.letThrough y && pick y.1.delivery.now) s.databases.handled =
    volume (fun y => y.1.recipients) (fun y => letThrough x.user y && pick y.1.now)
      (s.databases.service x.database).handled := by
  unfold Databases.service
  rw [volume_map, volume_filter]
  refine volume_congr (fun y hy => ?_)
  cases hthrough : x.letThrough y with
  | false =>
    have hskip : letThrough x.user (y.1.delivery, y.2) = false := hthrough
    simp [hskip]
  | true =>
    have htaken : letThrough x.user (y.1.delivery, y.2) = true := hthrough
    have hname : y.1.delivery.request.saslUsername = some x.user := by
      unfold letThrough at htaken
      exact eq_of_beq (Bool.and_eq_true_iff.mp htaken).1
    simp [htaken, (hlimits y hy hname).database]

/-- As long as every config that is read holds a sender to a window, on the same database and under
the same key prefix, and defers what cannot be checked, the other instances do so too, and the
server's clock does not go back, the messages of the sender that are let through never exceed the
window, in any closed interval of its length: over any run of the daemon, with any number of
connections, lost replies, and reloads that change all other windows. -/
theorem daemon_enforces (setup : ConnectionSetup) (config : Config) (s : DaemonSystem)
    (x : LimitedSender) (span limit : ℕ)
    (hplans : ∀ plan, x.plans plan → plan.HoldsTo span limit) (hconfig : x.governs config)
    (h : Reachable (next setup) x.governed (start config) s) (a : ℤ) :
    volume (fun y => y.1.delivery.recipients)
      (fun y => x.letThrough y &&
        decide (a ≤ y.1.delivery.now ∧ y.1.delivery.now ≤ a + span))
      s.databases.handled ≤ limit := by
  have henforces : s.Enforces x :=
    h.invariant (Enforces.start hconfig) (fun _ _ _ hi hok hnext => hi.step hok hnext)
  rw [volume_letThrough henforces.limits (fun now => decide (a ≤ now ∧ now ≤ a + span)),
    servedInOrder_reached h x.database]
  refine letThrough_window_le (p := x.keyPrefix) ?_ henforces.inOrder a
  intro d hd hname
  obtain ⟨hkeys, hplan, hdefer⟩ := henforces.mine d hd hname
  exact ⟨hkeys, hplans _ hplan, hdefer⟩

/-- A message is let through by another instance, and a SIGHUP then has a file read in which the
hour is left alone and a minute is new. -/
theorem daemon_enforces_hour :
    let info : ConnectionInfo := ⟨.unix "/run/valkey.sock", 0, none, none, .resp2, none, none⟩
    let before := CheckPlan.new [⟨1, .fromSecs 3600⟩]
    let after := CheckPlan.new [⟨1, .fromSecs 60⟩, ⟨1, .fromSecs 3600⟩]
    let config : Config := ⟨info, "postfix-ratelimitd", .defer, true, "/run/policy.sock", none, [],
      before⟩
    let newConfig : Config := ⟨info, "postfix-ratelimitd", .defer, true, "/run/policy.sock", none,
      [], after⟩
    let x : LimitedSender :=
      ⟨info.database, "postfix-ratelimitd", "alice", fun plan => plan == before || plan == after⟩
    let request : Request := ⟨fun k =>
      if k = "sasl_username" then some "alice"
      else if k = "recipient_count" then some "1" else none⟩
    let d : Dispatch :=
      ⟨info.database, request, config, ⟨"postfix-ratelimitd"⟩, ⟨0, by decide⟩, .none⟩
    let d' : Dispatch :=
      ⟨info.database, request, newConfig, ⟨"postfix-ratelimitd"⟩, ⟨120000000, by decide⟩, .none⟩
    let actions : List Action := [.elsewhere d, .sighup, .reloadMain, .reloadMain, .reloadMain,
      .worker 0 (.ok newConfig) true, .worker 0 (.ok newConfig) true,
      .worker 0 (.ok newConfig) true, .worker 0 (.ok newConfig) true, .elsewhere d']
    ∃ s, replay (next ⟨true, true⟩) x.governed (start config) actions = some s ∧
      volume (fun y => y.1.delivery.recipients)
        (fun y => x.letThrough y &&
          decide (0 ≤ y.1.delivery.now ∧ y.1.delivery.now ≤ 0 + 3600)) s.databases.handled ≤ 1 := by
  intro info before after config newConfig x request d d' actions
  obtain ⟨s, hreplay⟩ := Option.isSome_iff_exists.mp (show
    (replay (next ⟨true, true⟩) x.governed (start config) actions).isSome = true from by
      decide +kernel)
  have hplans : ∀ plan, x.plans plan → plan.HoldsTo 3600 1 := by
    intro plan hplan
    have hbefore : validateWindows 0 [⟨1, .fromSecs 3600⟩] = .ok () := by decide
    have hafter : validateWindows 0 [⟨1, .fromSecs 60⟩, ⟨1, .fromSecs 3600⟩] = .ok () := by decide
    rcases Bool.or_eq_true_iff.mp hplan with h | h
    · rw [eq_of_beq h]
      exact CheckPlan.new_holdsTo hbefore (List.mem_singleton_self _)
    · rw [eq_of_beq h]
      exact CheckPlan.new_holdsTo hafter (List.mem_cons_of_mem _ (List.mem_singleton_self _))
  exact ⟨s, hreplay, daemon_enforces ⟨true, true⟩ config s x 3600 1 hplans
    (x.governs_iff.mpr ⟨rfl, rfl, by decide +kernel, rfl⟩)
    (Reachable.start.of_replay actions hreplay) 0⟩

end DaemonSystem
end PostfixRatelimitd
