import PostfixRatelimitd.ConnectionSlots
import PostfixRatelimitd.DaemonSteps
import Mathlib.Data.List.InsertIdx

/-!
# Runs of the daemon

What a step does to the counters is what is seen of it. A run of the daemon is a run of the
connection system and one of the reload system, and all that reached a database was served
there in some order.
-/
namespace PostfixRatelimitd

/-! ## The connection system -/

namespace ConnectionSystem
variable {ν : Type*} {setup : ConnectionSetup} {s s' : ConnectionSystem ν}

theorem acceptNext_eq {accepted : Accepted} (hnext : acceptNext setup s accepted = some s') :
    s' = { s with main := .fetchAdd accepted } := by
  unfold acceptNext at hnext
  split_ifs at hnext
  exact (Option.some.inj hnext).symm

theorem shutdownNext_eq (hnext : shutdownNext s = some s') : s' = { s with main := .draining } := by
  unfold shutdownNext at hnext
  split_ifs at hnext
  exact (Option.some.inj hnext).symm

theorem tickNext_eq (hnext : tickNext setup s = some s') :
    s' = { s with report := reportStats setup.logsInfo } := by
  unfold tickNext at hnext
  split_ifs at hnext
  exact (Option.some.inj hnext).symm

theorem dropTaskNext_eq {i : ℕ} (hnext : dropTaskNext s i = some s') :
    s' = s.release i ∨ s' = { s with tasks := s.tasks.eraseIdx i } := by
  unfold dropTaskNext at hnext
  split_ifs at hnext
  obtain ⟨task, _, rfl⟩ := Option.map_eq_some_iff.mp hnext
  split_ifs
  · exact .inl rfl
  · exact .inr rfl

variable [AddCommMonoidWithOne ν]

theorem acceptErrorNext_eq {accepted : Accepted}
    (hnext : acceptErrorNext setup s accepted = some s') :
    s' = { s with stats := bumpPolicy s.stats accepted .acceptErrors } := by
  unfold acceptErrorNext at hnext
  split_ifs at hnext
  exact (Option.some.inj hnext).symm

theorem countNext_eq {i : ℕ} {counter : StatsCounter} (hnext : countNext s i counter = some s') :
    s' = { s with stats := bump s.stats counter } := by
  unfold countNext at hnext
  split_ifs at hnext
  exact (Option.some.inj hnext).symm

/-- The actions of the main loop. -/
def Action.ofMain : Action → Bool
  | accept _ | acceptError _ | shutdown | main => true
  | _ => false

theorem next_main {a : Action} (hnext : next setup s a = some s') (ha : a.ofMain = false) :
    s'.main = s.main := by
  cases a with
  | poll i =>
    obtain ⟨task, _, rfl⟩ := Option.map_eq_some_iff.mp hnext
    rfl
  | count i counter => rw [countNext_eq hnext]
  | finish i handlerEnd =>
    obtain ⟨_, rfl⟩ := finishNext_eq hnext
    rfl
  | dropTask i => rcases dropTaskNext_eq hnext with rfl | rfl <;> rfl
  | tick => rw [tickNext_eq hnext]
  | report => exact (reportNext_keeps hnext).2.1
  | _ => cases ha

/-- The actions that may change a counter. -/
def Action.counts : Action → Bool
  | acceptError _ | main | count _ _ | report => true
  | _ => false

theorem next_stats {a : Action} (hnext : next setup s a = some s') (ha : a.counts = false) :
    s'.stats = s.stats := by
  cases a with
  | accept accepted => rw [acceptNext_eq hnext]
  | shutdown => rw [shutdownNext_eq hnext]
  | poll i =>
    obtain ⟨task, _, rfl⟩ := Option.map_eq_some_iff.mp hnext
    rfl
  | finish i handlerEnd =>
    obtain ⟨_, rfl⟩ := finishNext_eq hnext
    rfl
  | dropTask i => rcases dropTaskNext_eq hnext with rfl | rfl <;> rfl
  | tick => rw [tickNext_eq hnext]
  | _ => cases ha

/-- The sockets of the tasks after a step. -/
def socketsAfter (s : ConnectionSystem ν) : Action → List Accepted
  | .main =>
    match s.main with
    | .spawn accepted => s.tasks.map ConnectionTask.accepted ++ [accepted]
    | _ => s.tasks.map ConnectionTask.accepted
  | .finish i _ | .dropTask i => (s.tasks.map ConnectionTask.accepted).eraseIdx i
  | _ => s.tasks.map ConnectionTask.accepted

theorem next_sockets {a : Action} (hnext : next setup s a = some s') :
    s'.tasks.map ConnectionTask.accepted = s.socketsAfter a := by
  cases a with
  | accept accepted =>
    rw [acceptNext_eq hnext]
    rfl
  | acceptError accepted =>
    rw [acceptErrorNext_eq hnext]
    rfl
  | shutdown =>
    rw [shutdownNext_eq hnext]
    rfl
  | main =>
    change mainNext s = some s' at hnext
    unfold mainNext at hnext
    unfold socketsAfter
    cases hmain : s.main with
    | select | returned => simp [hmain] at hnext
    | spawn accepted =>
      simp only [hmain, Option.some.injEq] at hnext
      subst hnext
      simp
    | _ =>
      simp only [hmain, Option.some.injEq] at hnext
      subst hnext
      rfl
  | poll i =>
    obtain ⟨task, htask, rfl⟩ := Option.map_eq_some_iff.mp hnext
    exact TaskPool.map_set htask rfl
  | count i counter =>
    rw [countNext_eq hnext]
    rfl
  | finish i handlerEnd =>
    obtain ⟨_, rfl⟩ := finishNext_eq hnext
    exact (List.eraseIdx_map _ _ _).symm
  | dropTask i =>
    rcases dropTaskNext_eq hnext with rfl | rfl
    · exact (List.eraseIdx_map _ _ _).symm
    · exact (List.eraseIdx_map _ _ _).symm
  | tick =>
    rw [tickNext_eq hnext]
    rfl
  | report =>
    obtain ⟨_, _, htasks, _⟩ := reportNext_keeps hnext
    rw [htasks]
    rfl

end ConnectionSystem

/-! ## The counters -/

/-- What is said of a counter agrees with what the counters held. -/
def DaemonEvent.Truthful (stats : StatsCounter → UInt64) : DaemonEvent → Prop
  | counted counter logging line => line = logging.line (stats counter)
  | reported counter amount | stored counter amount => amount = stats counter
  | _ => True

/-- What an observed step does to the counters. -/
def DaemonEvent.apply (e : DaemonEvent) (stats : StatsCounter → UInt64) : StatsCounter → UInt64 :=
  match e with
  | counted counter _ _ => ConnectionSystem.bump stats counter
  | reported counter _ | stored counter _ => Function.update stats counter 0
  | _ => stats

namespace DaemonSystem
variable {setup : ConnectionSetup} {s s' : DaemonSystem}

theorem mainNext_stats {slots : ConnectionSystem UInt64} (hnext : s.slots.mainNext = some slots) :
    slots.stats = s.mainEvents.foldr DaemonEvent.apply s.slots.stats := by
  unfold ConnectionSystem.mainNext at hnext
  unfold mainEvents
  cases hmain : s.slots.main with
  | refuse accepted | keep accepted =>
    simp only [hmain, Option.some.injEq] at hnext
    subst hnext
    cases accepted <;> rfl
  | select | returned => simp [hmain] at hnext
  | _ =>
    simp only [hmain, Option.some.injEq] at hnext
    subst hnext
    rfl

theorem reportNext_stats {slots : ConnectionSystem UInt64}
    (hnext : s.slots.reportNext = some slots) :
    slots.stats = s.reportEvents.foldr DaemonEvent.apply s.slots.stats := by
  unfold ConnectionSystem.reportNext at hnext
  unfold reportEvents
  cases hreport : s.slots.report with
  | nil => simp [hreport] at hnext
  | cons step rest =>
    rw [hreport] at hnext
    cases step with
    | load | swap counter | store counter =>
      obtain rfl := Option.some.inj hnext
      rfl

theorem acceptErrorNext_stats {accepted : Accepted} {slots : ConnectionSystem UInt64}
    (hnext : s.slots.acceptErrorNext setup accepted = some slots) :
    slots.stats = (s.events (.acceptError accepted)).foldr DaemonEvent.apply s.slots.stats := by
  rw [ConnectionSystem.acceptErrorNext_eq hnext]
  cases accepted <;> rfl

end DaemonSystem

/-- A worker leaves the main loop alone. -/
theorem ReloadSystem.workerNext_main {s s' : ReloadSystem} {i : ℕ}
    {file : Except ConfigError Config} {connects : Bool}
    (hnext : s.workerNext i file connects = some s') : s'.main = s.main := by
  unfold workerNext at hnext
  split at hnext <;> first
    | (obtain rfl := Option.some.inj hnext; rfl)
    | cases hnext

namespace DaemonSystem
variable {setup : ConnectionSetup} {s s' : DaemonSystem} {a : Action}

/-! ## The systems it is made of -/

/-- What a step is to the connection system. -/
def slotAction (s : DaemonSystem) : Action → Option ConnectionSystem.Action
  | .accept accepted => some (.accept accepted)
  | .acceptError accepted => some (.acceptError accepted)
  | .shutdown => some .shutdown
  | .main _ | .drained _ => some .main
  | .poll i => some (.poll i)
  | .count i =>
    ((s.handler i).bind PolicyHandler.counts).map (fun counted => .count i counted.1)
  | .finish i => some (.finish i .returned)
  | .dropTask i => some (.dropTask i)
  | .tick => some .tick
  | .report => some .report
  | _ => none

/-- What a step is to the reload system. -/
def reloadAction : Action → Option ReloadSystem.Action
  | .sighup => some .receive
  | .reloadMain => some .main
  | .worker i file connects => some (.worker i file connects)
  | _ => none

theorem slots_of_map {next? : Option (ConnectionSystem UInt64)}
    {put : ConnectionSystem UInt64 → DaemonSystem} (hnext : next?.map put = some s')
    (hslots : ∀ x, (put x).slots = x) (hreload : ∀ x, (put x).reload = s.reload) :
    next? = some s'.slots ∧ s'.reload = s.reload := by
  obtain ⟨x, hx, rfl⟩ := Option.map_eq_some_iff.mp hnext
  rw [hslots]
  exact ⟨hx, hreload x⟩

theorem reload_of_map {next? : Option ReloadSystem} {put : ReloadSystem → DaemonSystem}
    (hnext : next?.map put = some s') (hreload : ∀ x, (put x).reload = x)
    (hslots : ∀ x, (put x).slots = s.slots) : s'.slots = s.slots ∧ next? = some s'.reload := by
  obtain ⟨x, hx, rfl⟩ := Option.map_eq_some_iff.mp hnext
  rw [hreload]
  exact ⟨hslots x, hx⟩

theorem handlerNext_slots {i : ℕ} {step : PolicyHandler → Option PolicyHandler}
    (hnext : s.handlerNext i step = some s') : s'.slots = s.slots ∧ s'.reload = s.reload := by
  obtain ⟨h, h', _, _, rfl⟩ := handlerNext_eq_some hnext
  exact ⟨rfl, rfl⟩

/-- A step is one of the connection system or leaves it alone, and so for the reload system. -/
theorem next_parts (hnext : next setup s a = some s') :
    (match s.slotAction a with
      | some b => ConnectionSystem.next setup s.slots b = some s'.slots
      | none => s'.slots = s.slots) ∧
    (match reloadAction a with
      | some b => s.reload.next b = some s'.reload
      | none => s'.reload = s.reload) := by
  cases a with
  | accept accepted | acceptError accepted | shutdown =>
    simp only [next] at hnext
    split_ifs at hnext
    exact slots_of_map hnext (fun _ => rfl) (fun _ => rfl)
  | sighup =>
    simp only [next] at hnext
    split_ifs at hnext
    exact reload_of_map hnext (fun _ => rfl) (fun _ => rfl)
  | reloadMain | worker i file connects =>
    exact reload_of_map hnext (fun _ => rfl) (fun _ => rfl)
  | poll i | tick | report => exact slots_of_map hnext (fun _ => rfl) (fun _ => rfl)
  | main stream =>
    obtain ⟨_, slots, hslots, ⟨rfl, _⟩ | ⟨accepted, _, rfl⟩⟩ := mainNext_eq_some hnext
    · exact ⟨hslots, rfl⟩
    · exact ⟨hslots, rfl⟩
  | cancel =>
    change s.cancelNext = some s' at hnext
    unfold cancelNext at hnext
    split_ifs at hnext
    obtain rfl := Option.some.inj hnext
    exact ⟨rfl, rfl⟩
  | drained timedOut =>
    obtain ⟨_, _, slots, hslots, rfl⟩ := drainedNext_eq_some hnext
    exact ⟨hslots, rfl⟩
  | read i | reset i | load i | write i cut => exact handlerNext_slots hnext
  | cancelled i =>
    simp only [next] at hnext
    split_ifs at hnext
    exact handlerNext_slots hnext
  | handle i clock fault =>
    obtain ⟨h, d, _, _, rfl⟩ := handleNext_eq_some hnext
    exact ⟨rfl, rfl⟩
  | count i =>
    obtain ⟨h, h', counted, slots, hi, hcounts, _, hslots, rfl⟩ := countNext_eq_some hnext
    refine ⟨?_, rfl⟩
    simp only [slotAction, hi, hcounts, Option.bind_some, Option.map_some]
    exact hslots
  | finish i =>
    obtain ⟨slots, hslots, _, rfl⟩ := finishNext_eq_some hnext
    exact ⟨hslots, rfl⟩
  | dropTask i =>
    obtain ⟨slots, hslots, rfl⟩ := dropTaskNext_eq_some hnext
    exact ⟨hslots, rfl⟩
  | elsewhere dispatch =>
    obtain rfl := Option.some.inj hnext
    exact ⟨rfl, rfl⟩

/-- The counters after what was observed, newest first. -/
def statsAfter (log : List DaemonEvent) : StatsCounter → UInt64 :=
  log.foldr DaemonEvent.apply (fun _ => 0)

theorem readEvents_stats (h : PolicyHandler) (stats : StatsCounter → UInt64) :
    (readEvents h).foldr DaemonEvent.apply stats = stats := by
  unfold readEvents
  split <;> rfl

theorem next_stats (hnext : next setup s a = some s') :
    s'.slots.stats = (s.events a).foldr DaemonEvent.apply s.slots.stats := by
  have hslots := (next_parts hnext).1
  cases a with
  | acceptError accepted => exact acceptErrorNext_stats hslots
  | main stream => exact mainNext_stats hslots
  | drained timedOut =>
    obtain ⟨hdraining, _⟩ := drainedNext_eq_some hnext
    have hstats := mainNext_stats hslots
    have hquiet : s.mainEvents = [] := by
      unfold mainEvents
      rw [hdraining]
    rw [hstats, hquiet]
    cases timedOut <;> rfl
  | report => exact reportNext_stats hslots
  | count i =>
    obtain ⟨h, h', counted, slots, hi, hcounts, _, hcount, rfl⟩ := countNext_eq_some hnext
    have hevents : s.events (.count i) = s.bumped counted.1 counted.2 := by
      simp [events, hi, hcounts]
    rw [hevents]
    rw [ConnectionSystem.countNext_eq hcount]
    rfl
  | read i =>
    obtain ⟨h, h', hi, _, rfl⟩ := handlerNext_eq_some hnext
    have hevents : s.events (.read i) = readEvents h := by simp [events, hi]
    rw [hevents, readEvents_stats]
    rfl
  | handle i clock fault =>
    obtain ⟨h, d, hi, hd, rfl⟩ := handleNext_eq_some hnext
    have hevents : s.events (.handle i clock fault) = [.decided d (d.handle s.databases.db).1] := by
      simp [events, hi, hd]
    rw [hevents]
    rfl
  | write i cut =>
    rw [hslots]
    cases cut <;> rfl
  | dropTask i =>
    have hquiet : (s.events (.dropTask i)).foldr DaemonEvent.apply s.slots.stats =
        s.slots.stats := by
      show (s.handlers[i]?.join.elim [] (fun h => [DaemonEvent.dropped h.step])).foldr _ _ = _
      cases s.handlers[i]?.join <;> rfl
    rw [hquiet]
    exact ConnectionSystem.next_stats hslots rfl
  | accept accepted | shutdown | poll i | finish i | tick =>
    exact ConnectionSystem.next_stats hslots rfl
  | reset i | sighup | reloadMain | cancel | cancelled i | load i | worker i file connects
  | elsewhere dispatch => exact congrArg ConnectionSystem.stats hslots

/-- A step lets one thing be observed at most, and what it says of a counter is what the counter
held. -/
theorem events_truthful (s : DaemonSystem) (a : Action) :
    s.events a = [] ∨ ∃ e, s.events a = [e] ∧ e.Truthful s.slots.stats := by
  cases a with
  | acceptError accepted =>
    cases accepted with
    | policy => exact .inr ⟨_, rfl, rfl⟩
    | control => exact .inr ⟨_, rfl, trivial⟩
  | main stream =>
    show s.mainEvents = [] ∨ ∃ e, s.mainEvents = [e] ∧ _
    unfold mainEvents
    split
    · exact .inr ⟨_, rfl, rfl⟩
    · exact .inr ⟨_, rfl, trivial⟩
    · exact .inr ⟨_, rfl, rfl⟩
    · exact .inl rfl
  | drained timedOut =>
    cases timedOut with
    | true => exact .inr ⟨_, rfl, trivial⟩
    | false => exact .inl rfl
  | read i =>
    simp only [events]
    cases s.handler i with
    | none => exact .inl rfl
    | some h =>
      show readEvents h = [] ∨ ∃ e, readEvents h = [e] ∧ _
      unfold readEvents
      split
      · exact .inr ⟨_, rfl, trivial⟩
      · exact .inr ⟨_, rfl, trivial⟩
      · exact .inl rfl
  | reset i => exact .inr ⟨_, rfl, trivial⟩
  | handle i clock fault =>
    simp only [events]
    cases (s.handler i).bind (PolicyHandler.dispatch · clock fault) with
    | none => exact .inl rfl
    | some d => exact .inr ⟨_, rfl, trivial⟩
  | count i =>
    simp only [events]
    cases (s.handler i).bind PolicyHandler.counts with
    | none => exact .inl rfl
    | some counted => exact .inr ⟨_, rfl, rfl⟩
  | write i cut => cases cut <;> exact .inr ⟨_, rfl, trivial⟩
  | dropTask i =>
    simp only [events]
    cases s.handlers[i]?.join with
    | none => exact .inl rfl
    | some h => exact .inr ⟨_, rfl, trivial⟩
  | report =>
    show s.reportEvents = [] ∨ ∃ e, s.reportEvents = [e] ∧ _
    unfold reportEvents
    split
    · exact .inr ⟨_, rfl, rfl⟩
    · exact .inr ⟨_, rfl, rfl⟩
    · exact .inl rfl
  | _ => exact .inl rfl

/-! ## Runs -/

theorem handle_counts (d : Delivery) (db : Db) : (d.handle db).1.counter ∈ handlerCounters := by
  unfold Delivery.handle handleRequest
  split_ifs
  · simp [misconfigured, handlerCounters]
  · split
    · simp [unauthenticated, handlerCounters]
    · split
      · simp [misconfigured, handlerCounters]
      · simp only
        unfold answer
        split
        · decide
        · decide
        · split <;> decide

theorem recording_of_next {log : List DaemonEvent} (hnext : next setup s a = some s') :
    recording (next setup) events (s, log) a = some (s', s.events a ++ log) := by
  unfold recording
  rw [hnext]
  rfl

theorem handler_set {i : ℕ} {h h' : PolicyHandler} (hi : s.handler i = some h)
    (hhandlers : s'.handlers = s.handlers.set i (some h'))
    (htasks : s'.slots.tasks = s.slots.tasks) :
    s'.handler i = some h' := by
  obtain ⟨hget, htask⟩ := handler_eq_some hi
  unfold handler
  rw [htasks, if_pos htask, hhandlers,
    List.getElem?_set_self (List.getElem?_eq_some_iff.mp hget).choose]
  rfl

theorem handlerNext_of {i : ℕ} {h h' : PolicyHandler} {step : PolicyHandler → Option PolicyHandler}
    (hi : s.handler i = some h) (hstep : step h = some h') :
    s.handlerNext i step = some (s.setHandler i h') := by
  unfold handlerNext
  rw [hi, Option.bind_some, hstep]
  rfl

/-- The first connection, from its arrival to the wait of its handler. -/
def acceptActions (stream : List UInt8) : List Action :=
  [.accept .policy, .main [], .main [], .main stream, .poll 0]

/-- The daemon after it accepted its first connection. -/
def accepted (config : Config) (stream : List UInt8) : DaemonSystem where
  slots := ⟨.select, [⟨.policy, true⟩], 1,
    ConnectionSystem.bump (fun _ => 0) .connectionsAccepted, []⟩
  reload := .start (.startup config)
  handlers := [some (.start stream)]
  cancelled := false
  databases := .empty

theorem replay_accept (setup : ConnectionSetup) (config : Config) (stream : List UInt8) :
    replay (recording (next setup) events) (fun _ _ => true) (start config, [])
      (acceptActions stream) =
        some (accepted config stream, [.counted .connectionsAccepted .silent none]) := rfl

/-- One request from the wait to the wait. -/
def serveActions (i : ℕ) (clock : Clock) (fault : Fault) : List Action :=
  [.read i, .load i, .handle i clock fault, .count i, .write i none]

/-- The handler with one more request decided and answered, and this left to read. -/
def answered (h : PolicyHandler) (rest : List UInt8) (d : Dispatch) (handled : Handled) :
    PolicyHandler where
  step := .select
  reader := rest
  writer := h.writer ++ writeAction handled.action
  stream := h.stream
  served := h.served ++ [(d, handled)]

/-- The daemon after one of its handlers served a request. -/
def served (s : DaemonSystem) (i : ℕ) (h : PolicyHandler) (rest : List UInt8) (d : Dispatch) :
    DaemonSystem :=
  let handled := (d.handle s.databases.db).1
  { s with
    slots := { s.slots with stats := ConnectionSystem.bump s.slots.stats handled.counter }
    handlers := s.handlers.set i (some (answered h rest d handled))
    databases := s.databases.step d }

theorem handler_served {i : ℕ} {h : PolicyHandler} (hi : s.handler i = some h) (rest : List UInt8)
    (d : Dispatch) : (s.served i h rest d).handler i =
      some (answered h rest d (d.handle s.databases.db).1) := handler_set hi rfl rfl

/-- A waiting handler with a request to read can read it. -/
theorem read_next (setup : ConnectionSetup) {i : ℕ} {h : PolicyHandler} {request : Request}
    {rest : List UInt8} (hi : s.handler i = some h) (hstep : h.step = .select)
    (hread : Request.readFrom h.reader = (.ok (some request), rest)) :
    next setup s (.read i) =
        some (s.setHandler i { h with step := .loadFull request, reader := rest }) ∧
      s.events (.read i) = [.read] := by
  have hreadNext : h.readNext = some { h with step := .loadFull request, reader := rest } := by
    unfold PolicyHandler.readNext
    simp only [hstep, hread]
  exact ⟨handlerNext_of hi hreadNext, by simp [events, hi, readEvents, hreadNext]⟩

/-- A waiting handler with a request to read can serve it. -/
theorem replay_serve (setup : ConnectionSetup) (log : List DaemonEvent) {i : ℕ} {h : PolicyHandler}
    {request : Request} {rest : List UInt8} (hi : s.handler i = some h) (hstep : h.step = .select)
    (hread : Request.readFrom h.reader = (.ok (some request), rest)) (clock : Clock)
    (fault : Fault) :
    let state := s.reload.state
    let d : Dispatch := ⟨state.connectionInfo.database, request, state.config, state.limiter,
      clock, fault⟩
    let handled := (d.handle s.databases.db).1
    replay (recording (next setup) events) (fun _ _ => true) (s, log) (serveActions i clock fault) =
      some (s.served i h rest d, .wrote :: .counted handled.counter handled.logging
        (handled.logging.line (s.slots.stats handled.counter)) :: .decided d handled ::
          .read :: log) := by
  intro state d handled
  obtain ⟨hget, htask⟩ := handler_eq_some hi
  let h₁ : PolicyHandler := { h with step := .loadFull request, reader := rest }
  let h₂ : PolicyHandler := { h₁ with step := .handleRequest request state }
  let h₃ : PolicyHandler := h₂.decided d handled
  let h₄ : PolicyHandler := { h₃ with step := .writeAction handled.action }
  let s₁ := s.setHandler i h₁
  let s₂ := s₁.setHandler i h₂
  let s₃ : DaemonSystem := { s₂.setHandler i h₃ with databases := s.databases.step d }
  let slots := { s.slots with stats := ConnectionSystem.bump s.slots.stats handled.counter }
  let s₄ : DaemonSystem := { s₃.setHandler i h₄ with slots := slots }
  have hi₁ : s₁.handler i = some h₁ := handler_set hi rfl rfl
  have hi₂ : s₂.handler i = some h₂ := handler_set hi₁ rfl rfl
  have hi₃ : s₃.handler i = some h₃ := handler_set hi₂ rfl rfl
  have hi₄ : s₄.handler i = some h₄ := handler_set hi₃ rfl rfl
  obtain ⟨hread₁, hreadSeen⟩ := read_next setup hi hstep hread
  have hload : next setup s₁ (.load i) = some s₂ := handlerNext_of hi₁ rfl
  have hhandle : next setup s₂ (.handle i clock fault) = some s₃ := by
    show s₂.handleNext i clock fault = _
    unfold handleNext
    rw [hi₂]
    rfl
  have hcount : next setup s₃ (.count i) = some s₄ := by
    have hslots : s₃.slots.countNext i handled.counter = some slots :=
      if_pos ⟨htask, handle_counts d.delivery _⟩
    show s₃.countNext i = _
    unfold countNext
    rw [hi₃]
    show (s₃.slots.countNext i handled.counter).map _ = _
    rw [hslots]
    rfl
  have hwrite : next setup s₄ (.write i none) = some (s.served i h rest d) := by
    have hwritten : h₄.writeNext none = some (answered h rest d handled) := rfl
    show s₄.handlerNext i (PolicyHandler.writeNext none) = _
    rw [handlerNext_of hi₄ hwritten]
    simp [s₄, s₃, s₂, s₁, slots, handled, setHandler, served]
  have hhandleSeen : s₂.events (.handle i clock fault) = [.decided d handled] := by
    simp only [events, hi₂, Option.bind_some]
    rfl
  have hcountSeen : s₃.events (.count i) = [.counted handled.counter handled.logging
      (handled.logging.line (s.slots.stats handled.counter))] := by
    simp only [events, hi₃, Option.bind_some]
    rfl
  unfold serveActions
  rw [replay_cons rfl (recording_of_next hread₁), hreadSeen,
    replay_cons rfl (recording_of_next hload),
    replay_cons rfl (recording_of_next hhandle), hhandleSeen,
    replay_cons rfl (recording_of_next hcount), hcountSeen,
    replay_cons rfl (recording_of_next hwrite)]
  rfl

/-- No task is dropped before it was polled. -/
def pollsTasks (s : DaemonSystem) : Action → Bool
  | .dropTask i => s.slots.pollsTasks (.dropTask i)
  | _ => true

/-- A handler for each task of a policy connection, and none for the others. -/
def Parallel (s : DaemonSystem) : Prop :=
  s.handlers.map Option.isSome =
    (s.slots.tasks.map ConnectionTask.accepted).map (fun accepted => accepted == .policy)

theorem Parallel.length (h : s.Parallel) : s.handlers.length = s.slots.tasks.length := by
  have hlength := congrArg List.length h
  simpa using hlength

/-- Neither the handlers nor the tasks are more or fewer after the step. -/
theorem Parallel.of_same (h : s.Parallel)
    (hhandlers : s'.handlers.map Option.isSome = s.handlers.map Option.isSome)
    (htasks : s'.slots.tasks.map ConnectionTask.accepted =
      s.slots.tasks.map ConnectionTask.accepted) : s'.Parallel := by
  unfold Parallel
  rw [hhandlers, htasks]
  exact h

theorem Parallel.handlerNext {i : ℕ} {step : PolicyHandler → Option PolicyHandler}
    (h : s.Parallel) (hnext : s.handlerNext i step = some s') : s'.Parallel := by
  obtain ⟨handler, handler', hi, _, rfl⟩ := handlerNext_eq_some hnext
  exact h.of_same (TaskPool.map_set (handler_eq_some hi).1 rfl) rfl

theorem Parallel.step (h : s.Parallel) (hnext : next setup s a = some s') : s'.Parallel := by
  have hslots := (next_parts hnext).1
  cases a with
  | main stream =>
    have hsockets := ConnectionSystem.next_sockets hslots
    unfold ConnectionSystem.socketsAfter at hsockets
    obtain ⟨_, slots, _, ⟨rfl, hmain⟩ | ⟨accepted, hmain, rfl⟩⟩ := mainNext_eq_some hnext
    · refine h.of_same rfl (hsockets.trans ?_)
      cases hstep : s.slots.main with
      | spawn accepted => exact absurd hstep (hmain accepted)
      | _ => rfl
    · unfold Parallel at h ⊢
      rw [hmain] at hsockets
      rw [hsockets, List.map_append, List.map_append, h]
      cases accepted <;> rfl
  | drained timedOut =>
    obtain ⟨hdraining, _, slots, _, rfl⟩ := drainedNext_eq_some hnext
    have hsockets := ConnectionSystem.next_sockets hslots
    unfold ConnectionSystem.socketsAfter at hsockets
    rw [hdraining] at hsockets
    exact h.of_same rfl hsockets
  | finish i =>
    have hsockets := ConnectionSystem.next_sockets hslots
    obtain ⟨slots, _, _, rfl⟩ := finishNext_eq_some hnext
    unfold Parallel at h ⊢
    rw [hsockets]
    unfold ConnectionSystem.socketsAfter
    rw [← List.eraseIdx_map, ← List.eraseIdx_map, h]
  | dropTask i =>
    have hsockets := ConnectionSystem.next_sockets hslots
    obtain ⟨slots, _, rfl⟩ := dropTaskNext_eq_some hnext
    unfold Parallel at h ⊢
    rw [hsockets]
    unfold ConnectionSystem.socketsAfter
    rw [← List.eraseIdx_map, ← List.eraseIdx_map, h]
  | read i | reset i | load i | write i cut => exact h.handlerNext hnext
  | cancelled i =>
    simp only [next] at hnext
    split_ifs at hnext
    exact h.handlerNext hnext
  | handle i clock fault =>
    obtain ⟨handler, d, hi, _, rfl⟩ := handleNext_eq_some hnext
    exact h.of_same (TaskPool.map_set (handler_eq_some hi).1 rfl) rfl
  | count i =>
    obtain ⟨handler, handler', counted, slots, hi, hcounts, _, hcount, rfl⟩ :=
      countNext_eq_some hnext
    simp only [slotAction, hi, hcounts, Option.bind_some, Option.map_some] at hslots
    exact h.of_same (TaskPool.map_set (handler_eq_some hi).1 rfl)
      (ConnectionSystem.next_sockets hslots)
  | accept accepted | acceptError accepted | shutdown =>
    have hsockets := ConnectionSystem.next_sockets hslots
    simp only [next] at hnext
    split_ifs at hnext
    obtain ⟨slots, _, rfl⟩ := Option.map_eq_some_iff.mp hnext
    exact h.of_same rfl hsockets
  | poll i | tick | report =>
    have hsockets := ConnectionSystem.next_sockets hslots
    obtain ⟨slots, _, rfl⟩ := Option.map_eq_some_iff.mp hnext
    exact h.of_same rfl hsockets
  | sighup =>
    simp only [next] at hnext
    split_ifs at hnext
    obtain ⟨reload, _, rfl⟩ := Option.map_eq_some_iff.mp hnext
    exact h
  | reloadMain | worker i file connects =>
    obtain ⟨reload, _, rfl⟩ := Option.map_eq_some_iff.mp hnext
    exact h
  | cancel =>
    change s.cancelNext = some s' at hnext
    unfold cancelNext at hnext
    split_ifs at hnext
    obtain rfl := Option.some.inj hnext
    exact h
  | elsewhere dispatch =>
    obtain rfl := Option.some.inj hnext
    exact h

/-- The one main loop does not admit a connection and handle a SIGHUP at the same time. -/
def OneLoop (s : DaemonSystem) : Prop := s.slots.main = .select ∨ s.reload.main = .select

theorem atSelect_iff : s.atSelect = true ↔ s.slots.main = .select ∧ s.reload.main = .select := by
  simp [atSelect]

theorem OneLoop.step (h : s.OneLoop) (hnext : next setup s a = some s') : s'.OneLoop := by
  obtain ⟨hslots, hreload⟩ := next_parts hnext
  cases a with
  | accept accepted | acceptError accepted | shutdown =>
    simp only [next] at hnext
    split_ifs at hnext with hselect
    exact .inr ((congrArg ReloadSystem.main hreload).trans (atSelect_iff.mp hselect).2)
  | sighup =>
    simp only [next] at hnext
    split_ifs at hnext with hselect
    exact .inl ((congrArg ConnectionSystem.main hslots).trans (atSelect_iff.mp hselect).1)
  | main stream =>
    obtain ⟨_, slots, hmain, _⟩ := mainNext_eq_some hnext
    rcases h with hidle | hidle
    · simp [ConnectionSystem.mainNext, hidle] at hmain
    · exact .inr ((congrArg ReloadSystem.main hreload).trans hidle)
  | drained timedOut =>
    obtain ⟨hdraining, _⟩ := drainedNext_eq_some hnext
    rcases h with hidle | hidle
    · rw [hidle] at hdraining
      cases hdraining
    · exact .inr ((congrArg ReloadSystem.main hreload).trans hidle)
  | reloadMain =>
    rcases h with hidle | hidle
    · exact .inl ((congrArg ConnectionSystem.main hslots).trans hidle)
    · simp [reloadAction, ReloadSystem.next, ReloadSystem.mainNext, hidle] at hreload
  | worker i file connects =>
    have hidle := ReloadSystem.workerNext_main hreload
    exact h.imp (congrArg ConnectionSystem.main hslots).trans hidle.trans
  | poll i | finish i | dropTask i | tick | report =>
    exact h.imp (ConnectionSystem.next_main hslots rfl).trans
      (congrArg ReloadSystem.main hreload).trans
  | count i =>
    obtain ⟨_, _, counted, _, hi, hcounts, _⟩ := countNext_eq_some hnext
    simp only [slotAction, hi, hcounts, Option.bind_some, Option.map_some] at hslots
    exact h.imp (ConnectionSystem.next_main hslots rfl).trans
      (congrArg ReloadSystem.main hreload).trans
  | cancel | read i | reset i | cancelled i | load i | handle i clock fault | write i cut
  | elsewhere dispatch =>
    exact h.imp (congrArg ConnectionSystem.main hslots).trans
      (congrArg ReloadSystem.main hreload).trans

/-- What reached a database was served there one delivery after another. -/
def ServedInOrder (s : DaemonSystem) : Prop :=
  ∀ database, s.databases.service database =
    serviceOf ((s.databases.service database).handled.map Prod.fst).reverse

theorem ServedInOrder.step (h : s.ServedInOrder) (hnext : next setup s a = some s') :
    s'.ServedInOrder := by
  have hsame : s'.databases = s.databases → s'.ServedInOrder := by
    intro hdatabases
    unfold ServedInOrder
    rw [hdatabases]
    exact h
  have hserved : ∀ d, s'.databases = s.databases.step d → s'.ServedInOrder := by
    intro d hdatabases database
    rw [hdatabases, Databases.service_step]
    split_ifs
    · show (s.databases.service database).step d.delivery = serviceOf
        ((d.delivery :: (s.databases.service database).handled.map Prod.fst).reverse)
      rw [List.reverse_cons, serviceOf_snoc, ← h database]
    · exact h database
  have heffect := next_effect hnext
  generalize s.events a = seen at heffect
  cases heffect with
  | aside _ hdatabases _ | spawned _ _ _ _ hdatabases | moved _ _ _ hdatabases
  | ended _ _ _ hdatabases | dropped _ _ _ hdatabases => exact hsame hdatabases
  | decided _ _ _ hdatabases _ => exact hserved _ hdatabases
  | elsewhere d _ hdatabases _ => exact hserved d hdatabases

section Refines
variable {config : Config}

theorem slotAction_polls {b : ConnectionSystem.Action} (hok : s.pollsTasks a)
    (hb : s.slotAction a = some b) : s.slots.pollsTasks b := by
  cases a with
  | dropTask i =>
    obtain rfl := Option.some.inj hb
    exact hok
  | count i =>
    obtain ⟨counted, _, rfl⟩ := Option.map_eq_some_iff.mp hb
    rfl
  | accept accepted | acceptError accepted | shutdown | main stream | drained timedOut | poll i
  | finish i | tick | report =>
    obtain rfl := Option.some.inj hb
    rfl
  | _ => cases hb

theorem slots_reachable (h : Reachable (next setup) pollsTasks (start config) s) :
    Reachable (ConnectionSystem.next setup) ConnectionSystem.pollsTasks .start s.slots := by
  refine h.refines slots ?_
  intro s a s' hok hnext
  have hslots := (next_parts hnext).1
  cases hb : s.slotAction a with
  | none =>
    rw [hb] at hslots
    exact .inl hslots
  | some b =>
    rw [hb] at hslots
    exact .inr ⟨b, slotAction_polls hok hb, hslots⟩

theorem reload_reachable {ok : DaemonSystem → Action → Bool}
    (h : Reachable (next setup) ok (start config) s) :
    Reachable ReloadSystem.next (fun _ _ => true) (.start (.startup config)) s.reload := by
  refine h.refines reload ?_
  intro s a s' _ hnext
  have hreload := (next_parts hnext).2
  cases hb : reloadAction a with
  | none =>
    rw [hb] at hreload
    exact .inl hreload
  | some b =>
    rw [hb] at hreload
    exact .inr ⟨b, rfl, hreload⟩

theorem parallel_reached {ok : DaemonSystem → Action → Bool}
    (h : Reachable (next setup) ok (start config) s) : s.Parallel :=
  h.invariant (show (start config).Parallel from rfl) (fun _ _ _ hi _ hnext => hi.step hnext)

theorem slots_reached (h : Reachable (next setup) pollsTasks (start config) s) : s.slots.Slots :=
  (slots_reachable h).invariant ConnectionSystem.Slots.start
    (fun _ _ _ hi hok hnext => hi.step hok hnext)

theorem servedInOrder_reached {ok : DaemonSystem → Action → Bool}
    (h : Reachable (next setup) ok (start config) s) : s.ServedInOrder :=
  h.invariant (show (start config).ServedInOrder from fun _ => rfl)
    (fun _ _ _ hi _ hnext => hi.step hnext)

/-- A run of the daemon is one of the connection system and one of the reload system, taken by
one main loop that is never in both, and what reached a database was served there in its order.
So each task has its handler, the active connections are the handlers and the connection that
the main loop is deciding on, there are never more than 512 handlers, and the state that
requests are decided under is coherent. -/
theorem daemon_refines (setup : ConnectionSetup) (config : Config) (s : DaemonSystem)
    (h : Reachable (next setup) pollsTasks (start config) s) :
    Reachable (ConnectionSystem.next setup) ConnectionSystem.pollsTasks .start s.slots ∧
      Reachable ReloadSystem.next (fun _ _ => true) (.start (.startup config)) s.reload ∧
      (s.slots.main = .select ∨ s.reload.main = .select) ∧
      (∀ database, s.databases.service database =
        serviceOf ((s.databases.service database).handled.map Prod.fst).reverse) ∧
      s.handlers.map Option.isSome = s.slots.tasks.map (fun task => task.accepted == .policy) ∧
      s.slots.activeConnections.toNat =
        s.handlers.length + (if s.slots.main.holdsSlot then 1 else 0) ∧
      s.handlers.length ≤ 512 ∧ s.reload.state.Coherent config := by
  have hparallel := parallel_reached h
  have hslots := slots_reached h
  have hroom := hslots.room
  have honeLoop : s.OneLoop :=
    h.invariant (show (start config).OneLoop from .inl rfl) (fun _ _ _ hi _ hnext => hi.step hnext)
  refine ⟨slots_reachable h, reload_reachable h, honeLoop, servedInOrder_reached h, ?_, ?_, ?_,
    ReloadSystem.state_coherent (reload_reachable h)⟩
  · unfold Parallel at hparallel
    rw [hparallel, List.map_map]
    rfl
  · rw [hparallel.length]
    exact hslots.active
  · rw [hparallel.length]
    omega

/-- A connection is admitted, and a SIGHUP is handled while its task runs. -/
theorem daemon_refines_reload :
    let config : Config := ⟨⟨.unix "/run/valkey.sock", 0, none, none, .resp2, none, none⟩,
      "postfix-ratelimitd", .defer, true, "/run/policy.sock", none, [], CheckPlan.new []⟩
    let actions : List Action := [.accept .policy, .main [], .main [], .main [], .poll 0, .sighup,
      .reloadMain, .reloadMain, .reloadMain] ++ List.replicate 5 (.worker 0 (.ok config) true)
    ∃ s, replay (next ⟨true, true⟩) pollsTasks (start config) actions = some s ∧
      s.slots.activeConnections.toNat = s.handlers.length +
        (if s.slots.main.holdsSlot then 1 else 0) ∧
      s.reload.state.Coherent config := by
  intro config actions
  obtain ⟨s, hreplay⟩ := Option.isSome_iff_exists.mp (show
    (replay (next ⟨true, true⟩) pollsTasks (start config) actions).isSome = true from rfl)
  obtain ⟨_, _, _, _, _, hactive, _, hcoherent⟩ := daemon_refines ⟨true, true⟩ config s
    (Reachable.start.of_replay actions hreplay)
  exact ⟨s, hreplay, hactive, hcoherent⟩

end Refines

end DaemonSystem
end PostfixRatelimitd
