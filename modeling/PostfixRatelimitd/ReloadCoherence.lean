import PostfixRatelimitd.Reload

/-!
# Reloads keep the runtime state coherent

In every run of the reload system the mark keeps out a second worker, so the steps that
one call of `reloadConfig` takes stand together: it begins, reads the file, and publishes
a state with the config it read or fails. A call therefore compares the new config with
the state that is still in force when it ends, and what each call preserves holds of the
state however many of them kept an older limiter.
-/
namespace PostfixRatelimitd

theorem sameRedisConnection_iff {a b : ConnectionInfo} :
    sameRedisConnection a b = true ↔ a.addr = b.addr ∧ a.db = b.db ∧ a.username = b.username ∧
      a.password = b.password ∧ a.protocol = b.protocol := by
  simp [sameRedisConnection, and_assoc]

theorem sameRedisConnection_equivalence :
    Equivalence (fun a b => sameRedisConnection a b = true) where
  refl a := by simp [sameRedisConnection_iff]
  symm := by
    intro a b h
    obtain ⟨h1, h2, h3, h4, h5⟩ := sameRedisConnection_iff.mp h
    exact sameRedisConnection_iff.mpr ⟨h1.symm, h2.symm, h3.symm, h4.symm, h5.symm⟩
  trans := by
    intro a b c h h'
    obtain ⟨h1, h2, h3, h4, h5⟩ := sameRedisConnection_iff.mp h
    obtain ⟨k1, k2, k3, k4, k5⟩ := sameRedisConnection_iff.mp h'
    exact sameRedisConnection_iff.mpr
      ⟨h1.trans k1, h2.trans k2, h3.trans k3, h4.trans k4, h5.trans k5⟩

/-- The state at startup, once the limiter is connected. -/
def RuntimeState.startup (config : Config) : RuntimeState :=
  ⟨config, ⟨config.redisKeyPrefix⟩, config.redisConnectionInfo⟩

/-- The sockets are those bound at startup, and the limiter is one for the config. -/
structure RuntimeState.Coherent (startup : Config) (state : RuntimeState) : Prop where
  socket : state.config.socket = startup.socket
  controlSocket : state.config.controlSocket = startup.controlSocket
  keyPrefix : state.limiter.keyPrefix = state.config.redisKeyPrefix
  connection : sameRedisConnection state.connectionInfo state.config.redisConnectionInfo = true

/-- What is seen of a call of `reloadConfig`. -/
inductive CallEvent
  /-- it loads the state in force -/
  | began (current : RuntimeState)
  | read (file : Except ConfigError Config)
  | published (newState : RuntimeState)
  /-- it returns early, with this state in force -/
  | failed (state : RuntimeState)

namespace CallEvent

/-- The last event of a call. -/
def ends : CallEvent → Bool
  | published _ | failed _ => true
  | began _ | read _ => false

/-- No call is under way after these events. -/
def Ended (log : List CallEvent) : Prop := ∀ e, log.head? = some e → e.ends

/-- What comes right before an event. A state is published by the call that read its
config, and a call fails in the state it began in. -/
def Follows (before : List CallEvent) : CallEvent → Prop
  | began _ => Ended before
  | read _ => ∃ current rest, before = began current :: rest
  | published newState =>
    ∃ current rest, before = read (.ok newState.config) :: began current :: rest
  | failed state => ∃ file rest, before = read file :: began state :: rest

/-- The events, newest first, are those of calls one after another. -/
def Calls : List CallEvent → Prop
  | [] => True
  | e :: before => e.Follows before ∧ Calls before

/-- The configs read, newest first. -/
def reads (log : List CallEvent) : List Config :=
  log.filterMap fun
    | read (.ok config) => some config
    | _ => none

/-- The states published, newest first. -/
def publications (log : List CallEvent) : List RuntimeState :=
  log.filterMap fun
    | published newState => some newState
    | _ => none

end CallEvent

namespace WorkerStep

/-- The worker is inside a call of `reloadConfig`. -/
def reloading : WorkerStep → Bool
  | loadFull _ | readConfig _ _ | connect _ _ _ | store _ _ => true
  | load | compare _ | clear _ => false

end WorkerStep

namespace ReloadSystem

/-- What a step of the system shows of a call, newest first. -/
def events (s : ReloadSystem) : Action → List CallEvent
  | .receive | .main => []
  | .worker i file connects =>
    match s.workers[i]? with
    | some (.loadFull _) => [.began s.state]
    | some (.readConfig generation current) =>
      match afterRead generation current file with
      | .compare _ => [.failed s.state, .read file]
      | _ => [.read file]
    | some (.connect _ _ _) => if connects then [] else [.failed s.state]
    | some (.store _ newState) => [.published newState]
    | _ => []

end ReloadSystem

theorem CallEvent.Calls.publications_sublist : ∀ {log : List CallEvent}, Calls log →
    ((publications log).map RuntimeState.config).Sublist (reads log)
  | [], _ => List.Sublist.refl _
  | began _ :: _, h => h.2.publications_sublist
  | read (.error _) :: _, h => h.2.publications_sublist
  | read (.ok config) :: _, h => h.2.publications_sublist.cons config
  | failed _ :: _, h => h.2.publications_sublist
  | published newState :: before, h => by
    obtain ⟨⟨current, rest, rfl⟩, hbefore⟩ := h
    exact hbefore.2.2.publications_sublist.cons_cons newState.config

/-- Where a worker stands in its call: what it holds, and what was seen of the call. -/
def WorkerStep.Standing (startup : Config) (state : RuntimeState) (log : List CallEvent) :
    WorkerStep → Prop
  | load | loadFull _ | compare _ | clear _ => CallEvent.Ended log
  | readConfig _ current => current = state ∧ ∃ rest, log = .began state :: rest
  | connect _ _ newConfig =>
    newConfig.socket = startup.socket ∧ newConfig.controlSocket = startup.controlSocket ∧
      ∃ rest, log = .read (.ok newConfig) :: .began state :: rest
  | store _ newState =>
    newState.Coherent startup ∧
      ∃ current rest, log = .read (.ok newState.config) :: .began current :: rest

namespace ReloadSystem
open CallEvent

/-- The system with the events of its calls, newest first. -/
abbrev Recorded := ReloadSystem × List CallEvent

/-- One worker at most, inside the latest call at most, and a coherent state in force. -/
structure Journal (startup : Config) (x : Recorded) : Prop where
  exclusive : x.1.Exclusive
  coherent : x.1.state.Coherent startup
  inForce : x.1.state = (publications x.2).head?.getD (.startup startup)
  calls : Calls x.2
  idle : x.1.workers = [] → Ended x.2
  standing : ∀ w ∈ x.1.workers, w.Standing startup x.1.state x.2

namespace Journal
variable {startup : Config} {s s' : ReloadSystem} {log : List CallEvent}

theorem start (startup : Config) : Journal startup (.start (.startup startup), []) where
  exclusive := .start _
  coherent := ⟨rfl, rfl, rfl, sameRedisConnection_equivalence.refl _⟩
  inForce := rfl
  calls := trivial
  idle _ := by simp [Ended]
  standing w hw := by simp [ReloadSystem.start] at hw

/-- The main loop's arm shows nothing of a call, and a worker it spawns is outside one. -/
theorem quiet (h : Journal startup (s, log)) (hexclusive : s'.Exclusive)
    (hstate : s'.state = s.state)
    (hworkers : s'.workers = s.workers ∨ (s.workers = [] ∧ s'.workers = [.load])) :
    Journal startup (s', log) where
  exclusive := hexclusive
  coherent := hstate.symm ▸ h.coherent
  inForce := hstate.trans h.inForce
  calls := h.calls
  idle hidle := by
    rcases hworkers with hsame | ⟨hnone, _⟩
    · exact h.idle (hsame.symm.trans hidle)
    · exact h.idle hnone
  standing w hw := by
    rw [show (s', log).1.state = s.state from hstate]
    rcases hworkers with hsame | ⟨hnone, hspawned⟩
    · exact h.standing w (hsame ▸ hw)
    · obtain rfl : w = .load := by simpa [hspawned] using hw
      exact h.idle hnone

theorem main (h : Journal startup (s, log)) (hnext : s.next .main = some s') :
    Journal startup (s', log) := by
  have hexclusive := h.exclusive.step hnext
  change s.mainNext = some s' at hnext
  unfold mainNext at hnext
  cases hmain : s.main with
  | select => simp [hmain] at hnext
  | fetchAdd =>
    simp only [hmain, Option.some.injEq] at hnext
    subst hnext
    exact h.quiet hexclusive rfl (.inl rfl)
  | swap =>
    simp only [hmain, Option.some.injEq] at hnext
    subst hnext
    exact h.quiet hexclusive rfl (.inl rfl)
  | spawn =>
    simp only [hmain, Option.some.injEq] at hnext
    subst hnext
    have hidle : s.workers = [] := h.exclusive.spawning hmain
    exact h.quiet hexclusive rfl (.inr ⟨hidle, by simp [hidle]⟩)

/-- A step that leaves one worker, with the events it shows. -/
theorem of_step (seen : List CallEvent) {w' : WorkerStep} (hexclusive : s'.Exclusive)
    (hworkers : s'.workers = [w']) (hcoherent : s'.state.Coherent startup)
    (hinForce : s'.state = (publications (seen ++ log)).head?.getD (.startup startup))
    (hcalls : Calls (seen ++ log)) (hstanding : w'.Standing startup s'.state (seen ++ log)) :
    Journal startup (s', seen ++ log) where
  exclusive := hexclusive
  coherent := hcoherent
  inForce := hinForce
  calls := hcalls
  idle hidle := by simp [hworkers] at hidle
  standing w hw := by
    obtain rfl : w = w' := by simpa [hworkers] using hw
    exact hstanding

/-- A worker's step without an event. -/
theorem silent {w' : WorkerStep} (h : Journal startup (s, log)) (hexclusive : s'.Exclusive)
    (hworkers : s'.workers = [w']) (hstate : s'.state = s.state)
    (hstanding : w'.Standing startup s.state log) : Journal startup (s', log) :=
  of_step [] hexclusive hworkers (hstate.symm ▸ h.coherent) (hstate.trans h.inForce)
    h.calls (hstate.symm ▸ hstanding)

/-- What a read of the file leads to: the call fails, or the config keeps the sockets and
either needs a new connection or goes with the limiter there is. -/
theorem afterRead_cases (generation : ℕ) (current : RuntimeState)
    (file : Except ConfigError Config) :
    afterRead generation current file = .compare generation ∨
      ∃ newConfig, file = .ok newConfig ∧ newConfig.socket = current.config.socket ∧
        newConfig.controlSocket = current.config.controlSocket ∧
        (afterRead generation current file = .connect generation current newConfig ∨
          (afterRead generation current file =
              .store generation ⟨newConfig, current.limiter, current.connectionInfo⟩ ∧
            sameRedisConnection newConfig.redisConnectionInfo current.config.redisConnectionInfo ∧
            newConfig.redisKeyPrefix = current.config.redisKeyPrefix)) := by
  unfold afterRead
  cases file with
  | error e => exact .inl rfl
  | ok newConfig =>
    dsimp only
    split_ifs with hsocket hcontrol hredis
    · exact .inl rfl
    · exact .inl rfl
    · exact .inr ⟨newConfig, rfl, not_not.mp hsocket, not_not.mp hcontrol, .inl rfl⟩
    · simp only [Bool.not_eq_true', not_or, Bool.not_eq_false, not_not] at hredis
      exact .inr ⟨newConfig, rfl, not_not.mp hsocket, not_not.mp hcontrol, .inr ⟨rfl, hredis⟩⟩

/-- A limiter that is kept still connects to where the new config says. -/
theorem coherent_of_kept {current : RuntimeState} {newConfig : Config}
    (h : current.Coherent startup) (hsocket : newConfig.socket = current.config.socket)
    (hcontrol : newConfig.controlSocket = current.config.controlSocket)
    (hredis : sameRedisConnection newConfig.redisConnectionInfo
      current.config.redisConnectionInfo = true)
    (hkeys : newConfig.redisKeyPrefix = current.config.redisKeyPrefix) :
    RuntimeState.Coherent startup ⟨newConfig, current.limiter, current.connectionInfo⟩ where
  socket := hsocket.trans h.socket
  controlSocket := hcontrol.trans h.controlSocket
  keyPrefix := h.keyPrefix.trans hkeys.symm
  connection := sameRedisConnection_equivalence.trans h.connection
    (sameRedisConnection_equivalence.symm hredis)

theorem worker (h : Journal startup (s, log)) {i : ℕ} {file : Except ConfigError Config}
    {connects : Bool} (hnext : s.next (.worker i file connects) = some s') :
    Journal startup (s', s.events (.worker i file connects) ++ log) := by
  have hexclusive := h.exclusive.step hnext
  obtain ⟨rfl, _, w, hw, _⟩ := h.exclusive.worker_cases hnext
  change s.workers = [w] at hw
  have hhead : s.workers[0]? = some w := by simp [hw]
  have hstanding : w.Standing startup s.state log := h.standing w (by simp [hw])
  change s.workerNext 0 file connects = some s' at hnext
  unfold workerNext at hnext
  simp only [hhead] at hnext
  simp only [hw, List.set_cons_zero, List.eraseIdx_cons_zero] at hnext
  unfold events
  simp only [hhead]
  cases w with
  | load =>
    obtain rfl := Option.some.inj hnext
    exact h.silent hexclusive rfl rfl hstanding
  | loadFull g =>
    obtain rfl := Option.some.inj hnext
    exact of_step [.began s.state] hexclusive rfl h.coherent h.inForce
      ⟨hstanding, h.calls⟩ ⟨rfl, log, rfl⟩
  | readConfig g current =>
    obtain rfl := Option.some.inj hnext
    obtain ⟨rfl, rest, rfl⟩ := hstanding
    have hread : Follows (.began s.state :: rest) (.read file) := ⟨s.state, rest, rfl⟩
    rcases afterRead_cases g s.state file with hfail | ⟨newConfig, rfl, hsocket, hcontrol, hgo⟩
    · simp only [hfail] at hexclusive ⊢
      exact of_step [.failed s.state, .read file] hexclusive rfl h.coherent h.inForce
        ⟨⟨file, rest, rfl⟩, hread, h.calls⟩ (by simp [WorkerStep.Standing, Ended, ends])
    · rcases hgo with hconnect | ⟨hkeep, hredis, hpre⟩
      · simp only [hconnect] at hexclusive ⊢
        exact of_step [.read (.ok newConfig)] hexclusive rfl h.coherent h.inForce
          ⟨hread, h.calls⟩ ⟨hsocket.trans h.coherent.socket,
            hcontrol.trans h.coherent.controlSocket, rest, rfl⟩
      · simp only [hkeep] at hexclusive ⊢
        exact of_step [.read (.ok newConfig)] hexclusive rfl h.coherent h.inForce
          ⟨hread, h.calls⟩ ⟨coherent_of_kept h.coherent hsocket hcontrol hredis hpre,
            s.state, rest, rfl⟩
  | connect g current newConfig =>
    obtain rfl := Option.some.inj hnext
    obtain ⟨hsocket, hcontrol, rest, rfl⟩ := hstanding
    cases connects with
    | true =>
      exact h.silent hexclusive rfl rfl ⟨⟨hsocket, hcontrol, rfl,
        sameRedisConnection_equivalence.refl _⟩, s.state, rest, rfl⟩
    | false =>
      exact of_step [.failed s.state] hexclusive rfl h.coherent h.inForce
        ⟨⟨_, rest, rfl⟩, h.calls⟩ (by simp [WorkerStep.Standing, Ended, ends])
  | store g newState =>
    obtain rfl := Option.some.inj hnext
    obtain ⟨hcoherent, current, rest, rfl⟩ := hstanding
    exact of_step [.published newState] hexclusive rfl hcoherent rfl
      ⟨⟨current, rest, rfl⟩, h.calls⟩ (by simp [WorkerStep.Standing, Ended, ends])
  | compare g =>
    obtain rfl := Option.some.inj hnext
    by_cases hsame : counter s.reloadRequests = counter g
    · simp only [if_pos hsame] at hexclusive ⊢
      exact h.silent hexclusive rfl rfl hstanding
    · simp only [if_neg hsame] at hexclusive ⊢
      exact h.silent hexclusive rfl rfl hstanding
  | clear g =>
    obtain rfl := Option.some.inj hnext
    exact ⟨hexclusive, h.coherent, h.inForce, h.calls, fun _ => hstanding, by simp⟩

theorem step {x x' : Recorded} {a : Action} (h : Journal startup x)
    (hnext : recording next events x a = some x') : Journal startup x' := by
  obtain ⟨s, log⟩ := x
  obtain ⟨s', log'⟩ := x'
  obtain ⟨hstep, hlog⟩ := recording_eq_some hnext
  simp only at hstep hlog
  subst hlog
  cases a with
  | receive =>
    have hexclusive := h.exclusive.step hstep
    change s.receiveNext = some s' at hstep
    unfold receiveNext at hstep
    split at hstep
    · obtain rfl := Option.some.inj hstep
      exact h.quiet hexclusive rfl (.inl rfl)
    · cases hstep
  | main => exact h.main hstep
  | worker i file connects => exact h.worker hstep

theorem reached {x : Recorded}
    (h : Reachable (recording next events) (fun _ _ => true)
      (ReloadSystem.start (.startup startup), []) x) : Journal startup x :=
  h.invariant (Journal.start startup) (fun _ _ _ hi _ hnext => hi.step hnext)

end Journal

/-- Whatever was recorded, every state in force is coherent. -/
theorem state_coherent {startup : Config} {s : ReloadSystem}
    (h : Reachable next (fun _ _ => true) (start (.startup startup)) s) :
    s.state.Coherent startup := by
  obtain ⟨log, hlog⟩ := h.recorded events
  exact (Journal.reached hlog).coherent

/-- In every run at most one call of `reloadConfig` is under way, so each state is published
right after its config was read, and in that order. The state in force is the one published
last, also after a call has failed; it keeps the sockets of the startup, and its limiter was
built for its key prefix and for a connection that its config would make as well. -/
theorem reloads_coherent (startup : Config) (s : ReloadSystem) (log : List CallEvent)
    (h : Reachable (recording next events) (fun _ _ => true)
      (ReloadSystem.start (.startup startup), []) (s, log)) :
    s.workers.countP WorkerStep.reloading ≤ 1 ∧
      Calls log ∧ ((publications log).map RuntimeState.config).Sublist (reads log) ∧
      s.state = (publications log).head?.getD (.startup startup) ∧
      s.state.config.socket = startup.socket ∧
      s.state.config.controlSocket = startup.controlSocket ∧
      s.state.limiter.keyPrefix = s.state.config.redisKeyPrefix ∧
      sameRedisConnection s.state.connectionInfo s.state.config.redisConnectionInfo = true := by
  have hj := Journal.reached h
  have hone : s.workers.countP WorkerStep.reloading ≤ s.workers.length := List.countP_le_length
  have hlength : s.workers.length ≤ 1 := by
    rcases hj.exclusive.single with hidle | ⟨w, hw⟩
    · simp [show s.workers = [] from hidle]
    · simp [show s.workers = [w] from hw]
  have hcoherent := hj.coherent
  exact ⟨hone.trans hlength, hj.calls, hj.calls.publications_sublist, hj.inForce,
    hcoherent.socket, hcoherent.controlSocket, hcoherent.keyPrefix, hcoherent.connection⟩

/-- A reload for a new client name keeps the limiter; a second one, whose file cannot be read,
changes nothing. -/
theorem reloads_coherent_twice :
    let config : Config := ⟨⟨.unix "/run/valkey.sock", 0, none, none, .resp2, none, none⟩,
      "postfix-ratelimitd", .defer, true, "/run/policy.sock", none, [], CheckPlan.new []⟩
    let renamed : Config := { config with
      redisConnectionInfo := { config.redisConnectionInfo with libName := some "ratelimit" } }
    let state : RuntimeState := ⟨renamed, ⟨"postfix-ratelimitd"⟩, config.redisConnectionInfo⟩
    let error : ConfigError := .read "/etc/postfix-ratelimitd/config.toml"
    let log : List CallEvent := [.failed state, .read (.error error), .began state,
      .published state, .read (.ok renamed), .began (.startup config)]
    [WorkerStep.compare 2].countP WorkerStep.reloading ≤ 1 ∧ Calls log ∧
      ((publications log).map RuntimeState.config).Sublist (reads log) ∧
      state = (publications log).head?.getD (.startup config) ∧
      renamed.socket = config.socket ∧ renamed.controlSocket = config.controlSocket ∧
      state.limiter.keyPrefix = renamed.redisKeyPrefix ∧
      sameRedisConnection state.connectionInfo renamed.redisConnectionInfo = true := by
  intro config renamed state error log
  have hrun : Reachable (recording next events) (fun _ _ => true)
      (ReloadSystem.start (.startup config), [])
      (⟨state, .select, [.compare 2], 2, true,
        [.reloadBegan, .sighup, .reloadBegan, .sighup]⟩, log) :=
    Reachable.start.of_replay ([.receive, .main, .main, .main] ++
      List.replicate 6 (.worker 0 (.ok renamed) true) ++ [.receive, .main, .main, .main] ++
      List.replicate 3 (.worker 0 (.error error) true)) rfl
  exact reloads_coherent config _ log hrun

end ReloadSystem
end PostfixRatelimitd
