import PostfixRatelimitd.PolicyConversation

/-!
# The shutdown comes to an end

Once the main loop is past accepting connections, every step of the main loop or of a policy task
brings the return closer. A client that has sent requests ahead holds it up by as many steps as
they take, and one that does not read holds a task up that writes to it, until the main loop has
waited long enough. The task of a control connection is known here by its end alone.
-/
namespace PostfixRatelimitd
open TaskPool

/-! ## What is left of a stream -/

/-- A request takes bytes off the stream. -/
theorem Request.readLines_some_shorter {attributes : String → Option String}
    {limited rest : Limited} {r : Request}
    (h : readLines attributes limited = (.ok (some r), rest)) :
    rest.input.length < limited.input.length := by
  induction hlimit : limited.limit using Nat.strong_induction_on
    generalizing attributes limited with
  | _ limit ih =>
  cases hread : readLine limited with
  | mk result after =>
    cases result with
    | error e =>
      rw [Request.readLines_error hread] at h
      cases h
    | ok value =>
      obtain ⟨read, line⟩ := value
      obtain ⟨hlength, hafter⟩ := readLine_ok hread
      have hfits := limited.chunk_length_le
      have hinput := limited.chunk_length_le_input
      have hleft : after.input.length = limited.input.length - limited.chunk.length := by
        rw [hafter, List.length_drop]
      rw [Request.readLines_ok hread] at h
      split_ifs at h with hzero hcap hlf hcap hblank
      · cases h
      · cases h
      · cases h
      · cases h
      · cases h
        omega
      · have hlater := ih after.limit (by rw [hafter]; dsimp only; omega) h rfl
        omega

namespace PolicyHandler

/-- How many steps a handler can still take until its task has ended. A request is read, the state
is loaded, the request is decided and counted, and the answer is written. -/
def stepsLeft (h : PolicyHandler) : ℕ :=
  match h.step with
  | .loadFull _ => 5 * h.reader.length + 7
  | .handleRequest _ _ => 5 * h.reader.length + 6
  | .count _ => 5 * h.reader.length + 5
  | .writeAction _ => 5 * h.reader.length + 4
  | .select => 5 * h.reader.length + 3
  | .malformed => 2
  | .returned => 1

theorem Moves.stepsLeft_lt {state : RuntimeState} {h h' : PolicyHandler} {seen : List DaemonEvent}
    (hmoves : h.Moves state seen h') : h'.stepsLeft < h.stepsLeft := by
  cases hmoves with
  | @read request rest hstep hread =>
    have hshorter : rest.length < h.reader.length := by
      obtain ⟨hresult, hrest⟩ := Prod.ext_iff.mp hread
      rw [← show _ = rest from hrest]
      exact Request.readLines_some_shorter (Prod.ext hresult rfl)
    simp only [stepsLeft, hstep]
    omega
  | ended hstep _ | unreadable hstep _ | reset hstep | cancelled hstep | load hstep | count hstep
  | countMalformed hstep | wrote hstep | writeFailed _ hstep =>
    simp only [stepsLeft, hstep]
    omega

/-- The steps of a control connection are not counted. -/
def tasksStepsLeft : Option PolicyHandler → ℕ
  | some h => h.stepsLeft
  | none => 0

theorem stepsLeft_pos (h : PolicyHandler) : 0 < h.stepsLeft := by
  unfold stepsLeft
  split <;> omega

end PolicyHandler

namespace DaemonSystem
variable {setup : ConnectionSetup} {config : Config} {s s' : DaemonSystem} {a : Action}

/-! ## What is left of a shutdown -/

/-- How many steps the shutdown can still take, that is the polls of new tasks, the steps of the
policy tasks, the cancellation and the return. -/
def stepsLeft (s : DaemonSystem) : ℕ :=
  total PolicyHandler.tasksStepsLeft s.handlers +
    s.slots.tasks.countP (fun task => !task.guarded) +
      if s.slots.main = .draining then if s.cancelled then 1 else 2 else 0

/-- The steps of the main loop and of the policy tasks. To poll a task again is none of them, nor
is the end of a control connection, nor what a reload, the report or another instance does. -/
def shutsDown (s : DaemonSystem) : Action → Bool
  | .poll i => s.slots.tasks[i]?.any (fun task => !task.guarded)
  | .finish i | .dropTask i => s.handlers[i]?.join.isSome
  | .worker _ _ _ | .tick | .report | .elsewhere _ | .sighup | .reloadMain => false
  | _ => true

/-- The main loop accepts no more connections. -/
def PastLoop (s : DaemonSystem) : Prop := s.slots.main = .draining ∨ s.slots.main = .returned

theorem PastLoop.not_atSelect (h : s.PastLoop) : s.atSelect = false := by
  unfold atSelect
  rcases h with hmain | hmain <;> rw [hmain] <;> rfl

/-- A step that leaves the tasks and the main loop as they are. -/
theorem stepsLeft_of_same (hhandlers : s'.handlers = s.handlers)
    (htasks : s'.slots.tasks = s.slots.tasks) (hmain : s'.slots.main = s.slots.main)
    (hcancelled : s'.cancelled = s.cancelled) : s'.stepsLeft = s.stepsLeft := by
  unfold stepsLeft
  rw [hhandlers, htasks, hmain, hcancelled]

/-- A step of one handler. -/
theorem stepsLeft_set {i : ℕ} {h h' : PolicyHandler} (hi : s.handlers[i]? = some (some h))
    (hless : h'.stepsLeft < h.stepsLeft) (hhandlers : s'.handlers = s.handlers.set i (some h'))
    (htasks : s'.slots.tasks = s.slots.tasks) (hmain : s'.slots.main = s.slots.main)
    (hcancelled : s'.cancelled = s.cancelled) : s'.stepsLeft < s.stepsLeft := by
  have htotal := total_set PolicyHandler.tasksStepsLeft hi (some h')
  unfold stepsLeft
  rw [hhandlers, htasks, hmain, hcancelled]
  simp only [PolicyHandler.tasksStepsLeft] at htotal ⊢
  omega

theorem handlerNext_stepsLeft {i : ℕ} {step : PolicyHandler → Option PolicyHandler}
    {see : PolicyHandler → List DaemonEvent}
    (hmoves : ∀ h h', step h = some h' → h.Moves s.reload.state (see h) h')
    (hnext : s.handlerNext i step = some s') :
    s'.slots.main = s.slots.main ∧ s'.stepsLeft < s.stepsLeft := by
  obtain ⟨h, h', hi, hstep, rfl⟩ := handlerNext_eq_some hnext
  exact ⟨rfl, stepsLeft_set (handler_eq_some hi).1 (hmoves h h' hstep).stepsLeft_lt rfl rfl rfl rfl⟩

/-- A task is gone. -/
theorem stepsLeft_eraseIdx {i : ℕ} (hparallel : s.Parallel) (hi : i < s.slots.tasks.length)
    (hhandlers : s'.handlers = s.handlers.eraseIdx i)
    (htasks : s'.slots.tasks = s.slots.tasks.eraseIdx i) (hmain : s'.slots.main = s.slots.main)
    (hcancelled : s'.cancelled = s.cancelled) :
    s'.stepsLeft + (if s.handlers[i]?.join.isSome then 1 else 0) ≤ s.stepsLeft := by
  have hlength := hparallel.length
  have hhandler := List.getElem?_eq_getElem (l := s.handlers) (i := i) (by omega)
  have htotal := total_eraseIdx PolicyHandler.tasksStepsLeft hhandler
  have hpolls : (s.slots.tasks.eraseIdx i).countP (fun task => !task.guarded) ≤
      s.slots.tasks.countP (fun task => !task.guarded) :=
    (List.eraseIdx_sublist _ _).countP_le
  rw [hhandler]
  unfold stepsLeft
  rw [hhandlers, htasks, hmain, hcancelled]
  cases hown : s.handlers[i] with
  | none => simp only [Option.join_some, Option.isSome_none, Bool.false_eq_true, if_false]; omega
  | some h =>
    have hpos := h.stepsLeft_pos
    simp only [hown, PolicyHandler.tasksStepsLeft, Option.join_some, Option.isSome_some,
      if_true] at htotal ⊢
    omega

/-- A task is polled, for the first time or again. -/
theorem stepsLeft_poll {i : ℕ} {task : ConnectionTask} (hi : s.slots.tasks[i]? = some task)
    (hhandlers : s'.handlers = s.handlers)
    (htasks : s'.slots.tasks = s.slots.tasks.set i { task with guarded := true })
    (hmain : s'.slots.main = s.slots.main) (hcancelled : s'.cancelled = s.cancelled) :
    s'.stepsLeft + (if task.guarded then 0 else 1) = s.stepsLeft := by
  have htotal := total_set (fun task => if !task.guarded then 1 else 0) hi
    { task with guarded := true }
  rw [total_indicator_nat, total_indicator_nat] at htotal
  unfold stepsLeft
  rw [hhandlers, htasks, hmain, hcancelled]
  cases hguarded : task.guarded with
  | true => simp [hguarded] at htotal ⊢; omega
  | false => simp [hguarded] at htotal ⊢; omega

/-- Past the loop, each step of the main loop or of a task leaves fewer of them. -/
theorem PastLoop.step (hpast : s.PastLoop) (hparallel : s.Parallel)
    (hnext : next setup s a = some s') :
    s'.PastLoop ∧ s'.stepsLeft + (if s.shutsDown a then 1 else 0) ≤ s.stepsLeft := by
  have hbusy := hpast.not_atSelect
  -- A step that is none of the shutdown's, and one that is.
  have hidle : s.shutsDown a = false → s'.slots.main = s.slots.main →
      s'.stepsLeft = s.stepsLeft →
        s'.PastLoop ∧ s'.stepsLeft + (if s.shutsDown a then 1 else 0) ≤ s.stepsLeft := by
    intro hnone hmain hsame
    refine ⟨by unfold PastLoop; rwa [hmain], ?_⟩
    rw [hnone, hsame]
    exact le_rfl
  have hworks : s'.slots.main = s.slots.main ∧ s'.stepsLeft < s.stepsLeft →
      s'.PastLoop ∧ s'.stepsLeft + (if s.shutsDown a then 1 else 0) ≤ s.stepsLeft := by
    rintro ⟨hmain, hless⟩
    refine ⟨by unfold PastLoop; rwa [hmain], ?_⟩
    split_ifs <;> omega
  cases a with
  | accept accepted | acceptError accepted | sighup | shutdown => simp [next, hbusy] at hnext
  | main stream =>
    obtain ⟨hmain, slots, hslots, _⟩ := mainNext_eq_some hnext
    rw [ConnectionSystem.mainNext, hpast.resolve_left hmain] at hslots
    cases hslots
  | reloadMain =>
    obtain ⟨reload, _, rfl⟩ := Option.map_eq_some_iff.mp hnext
    exact hidle rfl rfl rfl
  | cancel =>
    change s.cancelNext = some s' at hnext
    unfold cancelNext at hnext
    split_ifs at hnext with hcancel
    obtain rfl := Option.some.inj hnext
    refine hworks ⟨rfl, ?_⟩
    simp [stepsLeft, hcancel]
  | drained timedOut =>
    obtain ⟨hmain, _, slots, hslots, rfl⟩ := drainedNext_eq_some hnext
    rw [ConnectionSystem.mainNext, hmain] at hslots
    obtain rfl := Option.some.inj hslots
    refine ⟨.inr rfl, ?_⟩
    simp only [stepsLeft, shutsDown, hmain]
    cases s.cancelled <;> simp
  | poll i =>
    obtain ⟨slots, hslots, rfl⟩ := Option.map_eq_some_iff.mp hnext
    obtain ⟨task, htask, rfl⟩ := Option.map_eq_some_iff.mp hslots
    refine ⟨hpast, ?_⟩
    have hpoll : DaemonSystem.stepsLeft { s with slots := { s.slots with
        tasks := s.slots.tasks.set i { task with guarded := true } } } + _ = s.stepsLeft :=
      stepsLeft_poll htask rfl rfl rfl rfl
    cases hguarded : task.guarded <;> simp [shutsDown, htask, hguarded] at hpoll ⊢ <;> omega
  | read i => exact hworks (handlerNext_stepsLeft (fun _ _ => PolicyHandler.readNext_moves) hnext)
  | reset i => exact hworks (handlerNext_stepsLeft (fun _ _ => PolicyHandler.resetNext_moves) hnext)
  | cancelled i =>
    simp only [next] at hnext
    split_ifs at hnext
    exact hworks (handlerNext_stepsLeft (fun _ _ => PolicyHandler.cancelNext_moves) hnext)
  | load i => exact hworks (handlerNext_stepsLeft (fun _ _ => PolicyHandler.loadNext_moves) hnext)
  | handle i clock fault =>
    obtain ⟨h, d, hi, hd, rfl⟩ := handleNext_eq_some hnext
    obtain ⟨request, current, hstep, _⟩ := PolicyHandler.dispatch_eq_some hd
    refine hworks ⟨rfl, stepsLeft_set (handler_eq_some hi).1 ?_ rfl rfl rfl rfl⟩
    simp only [PolicyHandler.stepsLeft, PolicyHandler.decided, hstep]
    omega
  | count i =>
    obtain ⟨h, h', counted, slots, hi, hcounts, hcount, hslots, rfl⟩ := countNext_eq_some hnext
    have hmoves : h.Moves s.reload.state _ h' := PolicyHandler.countNext_moves hcounts hcount none
    obtain rfl := ConnectionSystem.countNext_eq hslots
    exact hworks ⟨rfl, stepsLeft_set (handler_eq_some hi).1 hmoves.stepsLeft_lt rfl rfl rfl rfl⟩
  | write i cut =>
    exact hworks (handlerNext_stepsLeft (fun _ _ => PolicyHandler.writeNext_moves) hnext)
  | finish i =>
    obtain ⟨slots, hslots, _, rfl⟩ := finishNext_eq_some hnext
    obtain ⟨hi, rfl⟩ := ConnectionSystem.finishNext_eq hslots
    exact ⟨hpast, stepsLeft_eraseIdx hparallel hi rfl rfl rfl rfl⟩
  | dropTask i =>
    obtain ⟨slots, hslots, rfl⟩ := dropTaskNext_eq_some hnext
    have hi : i < s.slots.tasks.length := by
      unfold ConnectionSystem.dropTaskNext at hslots
      split_ifs at hslots
      obtain ⟨task, htask, _⟩ := Option.map_eq_some_iff.mp hslots
      exact (List.getElem?_eq_some_iff.mp htask).1
    rcases ConnectionSystem.dropTaskNext_eq hslots with rfl | rfl
    · exact ⟨hpast, stepsLeft_eraseIdx hparallel hi rfl rfl rfl rfl⟩
    · exact ⟨hpast, stepsLeft_eraseIdx hparallel hi rfl rfl rfl rfl⟩
  | worker i file connects =>
    obtain ⟨reload, _, rfl⟩ := Option.map_eq_some_iff.mp hnext
    exact hidle rfl rfl rfl
  | tick =>
    obtain ⟨slots, hslots, rfl⟩ := Option.map_eq_some_iff.mp hnext
    obtain rfl := ConnectionSystem.tickNext_eq hslots
    exact hidle rfl rfl rfl
  | report =>
    obtain ⟨slots, hslots, rfl⟩ := Option.map_eq_some_iff.mp hnext
    obtain ⟨_, hmain, htasks, _⟩ := ConnectionSystem.reportNext_keeps hslots
    exact hidle rfl hmain (stepsLeft_of_same rfl htasks hmain rfl)
  | elsewhere dispatch =>
    obtain rfl := Option.some.inj hnext
    exact hidle rfl rfl rfl

/-! ## Which tasks wait -/

/-- The task whose step it is, if no client brings it about. What is read comes from the client,
and an answer is written as far as the client takes it. -/
def Action.task : Action → Option ℕ
  | .poll i | .cancelled i | .load i | .handle i _ _ | .count i | .finish i => some i
  | _ => none

theorem handlerNext_isSome {i : ℕ} {h : PolicyHandler} {step : PolicyHandler → Option PolicyHandler}
    (hi : s.handler i = some h) (hstep : (step h).isSome) : (s.handlerNext i step).isSome := by
  unfold handlerNext
  rw [hi, Option.bind_some, Option.isSome_map]
  exact hstep

/-- After the cancellation every policy task that is not writing has a step to take. -/
theorem task_goes_on (hparallel : s.Parallel) (hdecided : s.HandlersDecided)
    (hcancelled : s.cancelled = true) {i : ℕ} {h : PolicyHandler}
    (hhandler : s.handlers[i]? = some (some h))
    (hwriting : ∀ action, h.step ≠ .writeAction action) :
    ∃ a, a.task = some i ∧ s.shutsDown a ∧ (next setup s a).isSome := by
  have hlength := hparallel.length
  have hi := (List.getElem?_eq_some_iff.mp hhandler).1
  obtain ⟨task, htask⟩ : ∃ task, s.slots.tasks[i]? = some task :=
    ⟨_, List.getElem?_eq_getElem (by omega)⟩
  cases hguarded : task.guarded with
  | false => exact ⟨.poll i, rfl, by simp [shutsDown, htask, hguarded], by
      simp [next, ConnectionSystem.pollNext, htask]⟩
  | true =>
    have haccepted : task.accepted = .policy := by
      have hsame := congrArg (fun xs => xs[i]?) hparallel
      simpa [hhandler, htask] using hsame
    have htask' : s.slots.tasks[i]? = some ⟨.policy, true⟩ := by
      rw [htask, ← haccepted, ← hguarded]
    have hown : s.handler i = some h := by simp [handler, htask', hhandler]
    cases hstep : h.step with
    | select =>
      refine ⟨.cancelled i, rfl, rfl, ?_⟩
      rw [next, if_pos hcancelled]
      exact handlerNext_isSome hown (by simp [PolicyHandler.cancelNext, hstep])
    | loadFull request =>
      exact ⟨.load i, rfl, rfl, handlerNext_isSome hown (by simp [PolicyHandler.loadNext, hstep])⟩
    | handleRequest request current =>
      refine ⟨.handle i ⟨0, by decide⟩ .none, rfl, rfl, ?_⟩
      simp [next, handleNext, hown, PolicyHandler.dispatch, hstep]
    | count handled =>
      obtain ⟨d, db, rfl⟩ := hdecided _ (List.mem_of_getElem? hhandler) h rfl handled hstep
      refine ⟨.count i, rfl, rfl, ?_⟩
      simp [next, countNext, hown, PolicyHandler.counts, PolicyHandler.countNext, hstep,
        ConnectionSystem.countNext, htask', handle_counts]
    | malformed =>
      refine ⟨.count i, rfl, rfl, ?_⟩
      simp [next, countNext, hown, PolicyHandler.counts, PolicyHandler.countNext, hstep,
        ConnectionSystem.countNext, htask', handlerCounters]
    | writeAction action => exact absurd hstep (hwriting action)
    | returned =>
      have hslots : s.slots.finishNext i = some (s.slots.release i) := by
        simp [ConnectionSystem.finishNext, htask']
      refine ⟨.finish i, rfl, by simp [shutsDown, hhandler], ?_⟩
      simp [next, finishNext, hhandler, hstep, HandlerStep.isReturned, hslots]

/-! ## Runs -/

/-- After a SIGTERM, whatever else goes on, the main loop and the policy tasks take no more steps
than were left to take, which the unread input bounds. The tasks are told to stop, and from then on
a policy task has a step to take that no client brings about unless it is writing an answer. The
main loop can return when no task is left, and when the time for them is over it can in any case. -/
theorem shutdown_ends (setup : ConnectionSetup) (config : Config) (s t : DaemonSystem)
    (log : List Action) (h : Reachable (next setup) (fun _ _ => true) (start config) s)
    (hdraining : s.slots.main = .draining)
    (hrun : Reachable (recording (next setup) (fun s a => if s.shutsDown a then [a] else []))
      (fun _ _ => true) (s, []) (t, log)) :
    log.length + t.stepsLeft ≤ s.stepsLeft ∧ t.PastLoop ∧
      (t.slots.main = .draining →
        (t.cancelled = false → (next setup t .cancel).isSome) ∧
        (t.cancelled = true →
          (∀ i handler, t.handlers[i]? = some (some handler) →
            (∀ action, handler.step ≠ .writeAction action) →
            ∃ a, a.task = some i ∧ t.shutsDown a ∧ (next setup t a).isSome) ∧
          (t.handlers = [] → (next setup t (.drained false)).isSome) ∧
          (next setup t (.drained true)).isSome)) := by
  have hdecided : s.HandlersDecided :=
    h.invariant (show (start config).HandlersDecided by simp [HandlersDecided, start])
      (fun _ _ _ hi _ hnext => hi.step hnext)
  obtain ⟨hbound, hpast, hparallel, hdecided'⟩ := @Reachable.invariant _ _ _ _ _ _
    (fun x => x.2.length + x.1.stepsLeft ≤ s.stepsLeft ∧ x.1.PastLoop ∧ x.1.Parallel ∧
      x.1.HandlersDecided)
    (show _ ∧ _ from ⟨by simp, .inl hdraining, parallel_reached h, hdecided⟩) (by
      rintro x a x' ⟨hbound, hpast, hparallel, hdecided⟩ _ hnext
      obtain ⟨hstep, hseen⟩ := recording_eq_some hnext
      obtain ⟨hpast', hless⟩ := hpast.step hparallel hstep
      refine ⟨?_, hpast', hparallel.step hstep, hdecided.step hstep⟩
      rw [hseen, List.length_append]
      split_ifs at hless ⊢ <;> simp only [List.length_singleton, List.length_nil] <;> omega) hrun
  refine ⟨hbound, hpast, fun hmain => ⟨?_, fun hcancelled => ⟨?_, ?_, ?_⟩⟩⟩
  · intro hcancelled
    simp [next, cancelNext, hmain, hcancelled]
  · exact fun i handler hi hwriting => task_goes_on hparallel hdecided' hcancelled hi hwriting
  · intro hnil
    simp [next, drainedNext, hmain, hcancelled, hnil, ConnectionSystem.mainNext]
  · simp [next, drainedNext, hmain, hcancelled, ConnectionSystem.mainNext]

/-- The last steps when one handler is left and it waits. -/
theorem replay_lastSteps {h : PolicyHandler} (hstep : h.step = .select)
    (hhandlers : s.handlers = [some h]) (htasks : s.slots.tasks = [⟨.policy, true⟩])
    (hdraining : s.slots.main = .draining) (hcancelled : s.cancelled = true) (log : List Action) :
    ∃ t, replay (recording (next setup) (fun s a => if s.shutsDown a then [a] else []))
      (fun _ _ => true) (s, log) [.cancelled 0, .finish 0, .drained false] =
        some (t, [.drained false, .finish 0, .cancelled 0] ++ log) ∧ t.slots.main = .returned := by
  obtain ⟨⟨main, tasks, connections, stats, report⟩, reload, handlers, cancelled, databases⟩ := s
  obtain ⟨step, reader, writer, stream, served⟩ := h
  subst hstep hhandlers htasks hdraining hcancelled
  exact ⟨_, rfl, rfl⟩

/-- A SIGTERM comes while the second of two requests that were sent at once is still unread. It is
served all the same, the task ends, and the main loop returns after nine steps. Before the task
ends, while it waits for a third request, it has a step to take. -/
theorem shutdown_ends_busy :
    let stream := [oneRecipient, oneRecipient].flatMap Request.encodeRequest
    let serve := serveActions 0 ⟨0, by decide⟩ .none
    let shutsDown := fun (s : DaemonSystem) a => if s.shutsDown a then [a] else []
    ∃ s waiting t log log',
      replay (next ⟨true, true⟩) (fun _ _ => true) (start oneAMinute)
        (acceptActions stream ++ (serve ++ [.shutdown])) = some s ∧
      replay (recording (next ⟨true, true⟩) shutsDown) (fun _ _ => true) (s, [])
        ([.cancel] ++ serve) = some (waiting, log) ∧
      (∃ a, a.task = some 0 ∧ (next ⟨true, true⟩ waiting a).isSome) ∧
      replay (recording (next ⟨true, true⟩) shutsDown) (fun _ _ => true) (waiting, log)
        [.cancelled 0, .finish 0, .drained false] = some (t, log') ∧
      t.slots.main = .returned ∧ log'.length = 9 ∧ log'.length + t.stepsLeft ≤ s.stepsLeft := by
  intro stream serve shutsDown
  let rest := Request.encodeRequest oneRecipient ++ []
  let s₀ := accepted oneAMinute stream
  let h₁ := answered (.start stream) rest oneDispatch (oneDispatch.handle s₀.databases.db).1
  let s₁ := s₀.served 0 (.start stream) rest oneDispatch
  let s₂ : DaemonSystem := { s₁ with slots := { s₁.slots with main := .draining } }
  let s₃ : DaemonSystem := { s₂ with cancelled := true }
  let s₄ := s₃.served 0 h₁ [] oneDispatch
  let h₂ := answered h₁ [] oneDispatch (oneDispatch.handle s₃.databases.db).1
  have hi₀ : s₀.handler 0 = some (.start stream) := rfl
  have hi₃ : s₃.handler 0 = some h₁ := handler_served hi₀ rest oneDispatch
  have hserved := @replay_of_recording _ _ _ _ _ (fun _ _ => true) _ _ _
    (@replay_first ⟨true, true⟩ stream rest rfl)
  have hstop : replay (next ⟨true, true⟩) (fun _ _ => true) s₁ [.shutdown] = some s₂ := rfl
  have hrun : replay (next ⟨true, true⟩) (fun _ _ => true) (start oneAMinute)
      (acceptActions stream ++ (serve ++ [.shutdown])) = some s₂ := by
    rw [← List.append_assoc]
    exact replay_trans hserved hstop
  have hcancel : replay (next ⟨true, true⟩) (fun _ _ => true) s₂ [.cancel] = some s₃ := rfl
  have hsecond := @replay_of_recording _ _ _ _ _ (fun _ _ => true) _ _ _
    (replay_serve ⟨true, true⟩ [] hi₃ rfl (readFrom_oneRecipient []) ⟨0, by decide⟩ .none)
  have hself : ∀ a ∈ [Action.cancel] ++ serve, ∀ s, shutsDown s a = [a] := by
    intro a ha s
    simp only [serve, serveActions, List.cons_append, List.nil_append, List.mem_cons,
      List.not_mem_nil, or_false] at ha
    rcases ha with rfl | rfl | rfl | rfl | rfl | rfl <;> rfl
  have hlogged := replay_recording_self hself (replay_trans hcancel hsecond) []
  have hwaiting : s₄.handlers = [some h₂] := rfl
  obtain ⟨t, hlast, hreturned⟩ := @replay_lastSteps ⟨true, true⟩ s₄ h₂ rfl hwaiting rfl rfl rfl
    (([Action.cancel] ++ serve).reverse ++ [])
  have hreachable := Reachable.start.of_replay _ hrun
  obtain ⟨_, _, hon⟩ := shutdown_ends ⟨true, true⟩ oneAMinute s₂ s₄ _ hreachable rfl
    (Reachable.start.of_replay _ hlogged)
  obtain ⟨a, htask, _, henabled⟩ := ((hon rfl).2 rfl).1 0 h₂ rfl
    (by intro action; simp [h₂, answered])
  obtain ⟨hbound, _, _⟩ := shutdown_ends ⟨true, true⟩ oneAMinute s₂ t _ hreachable rfl
    ((Reachable.start.of_replay _ hlogged).of_replay _ hlast)
  exact ⟨s₂, s₄, t, _, _, hrun, hlogged, ⟨a, htask, henabled⟩, hlast, hreturned, rfl, hbound⟩

end DaemonSystem
end PostfixRatelimitd
