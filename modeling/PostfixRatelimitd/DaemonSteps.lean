import PostfixRatelimitd.DaemonSystem

/-!
# What the steps of the daemon do

Said once for all later results: what a step does to the handlers and to the database, and
what is seen of it.
-/
namespace PostfixRatelimitd

/-! ## One handler -/

/-- A step of a handler of its own, with what is seen of it. -/
inductive PolicyHandler.Moves (state : RuntimeState) :
    PolicyHandler → List DaemonEvent → PolicyHandler → Prop
  | read {h : PolicyHandler} {request : Request} {rest : List UInt8} : h.step = .select →
      Request.readFrom h.reader = (.ok (some request), rest) →
      Moves state h [.read] { h with step := .loadFull request, reader := rest }
  | ended {h : PolicyHandler} {rest : List UInt8} : h.step = .select →
      Request.readFrom h.reader = (.ok none, rest) →
      Moves state h [] { h with step := .returned, reader := rest }
  | unreadable {h : PolicyHandler} {e : IoError} {rest : List UInt8} : h.step = .select →
      Request.readFrom h.reader = (.error e, rest) →
      Moves state h [.malformed] { h with step := .malformed, reader := rest }
  | reset {h : PolicyHandler} : h.step = .select →
      Moves state h [.malformed] { h with step := .malformed }
  | cancelled {h : PolicyHandler} : h.step = .select → Moves state h [] { h with step := .returned }
  | load {h : PolicyHandler} {request : Request} : h.step = .loadFull request →
      Moves state h [] { h with step := .handleRequest request state }
  | count {h : PolicyHandler} {handled : Handled} {line : Option LogLine} :
      h.step = .count handled →
      Moves state h [.counted handled.counter handled.logging line]
        { h with step := .writeAction handled.action }
  | countMalformed {h : PolicyHandler} {line : Option LogLine} : h.step = .malformed →
      Moves state h [.counted .malformed (.always "error reading policy request") line]
        { h with step := .returned }
  | wrote {h : PolicyHandler} {action : String} : h.step = .writeAction action →
      Moves state h [.wrote] { h with step := .select, writer := h.writer ++ writeAction action }
  | writeFailed {h : PolicyHandler} {action : String} (n : ℕ) : h.step = .writeAction action →
      Moves state h [.writeFailed]
        { h with step := .returned, writer := h.writer ++ (writeAction action).take n }

namespace PolicyHandler
variable {state : RuntimeState} {h h' : PolicyHandler}

theorem readNext_moves (hnext : h.readNext = some h') :
    h.Moves state (DaemonSystem.readEvents h) h' := by
  unfold DaemonSystem.readEvents
  rw [hnext]
  unfold readNext at hnext
  cases hstep : h.step with
  | select =>
    simp only [hstep] at hnext
    split at hnext
    · rename_i request rest hread
      obtain rfl := Option.some.inj hnext
      exact .read hstep hread
    · rename_i rest hread
      obtain rfl := Option.some.inj hnext
      exact .ended hstep hread
    · rename_i e rest hread
      obtain rfl := Option.some.inj hnext
      exact .unreadable hstep hread
  | _ => simp [hstep] at hnext

theorem resetNext_moves (hnext : h.resetNext = some h') : h.Moves state [.malformed] h' := by
  unfold resetNext at hnext
  cases hstep : h.step with
  | select =>
    simp only [hstep, Option.some.injEq] at hnext
    exact hnext ▸ .reset hstep
  | _ => simp [hstep] at hnext

theorem cancelNext_moves (hnext : h.cancelNext = some h') : h.Moves state [] h' := by
  unfold cancelNext at hnext
  cases hstep : h.step with
  | select =>
    simp only [hstep, Option.some.injEq] at hnext
    exact hnext ▸ .cancelled hstep
  | _ => simp [hstep] at hnext

theorem loadNext_moves (hnext : h.loadNext state = some h') : h.Moves state [] h' := by
  unfold loadNext at hnext
  cases hstep : h.step with
  | loadFull request =>
    simp only [hstep, Option.some.injEq] at hnext
    exact hnext ▸ .load hstep
  | _ => simp [hstep] at hnext

theorem writeNext_moves {cut : Option ℕ} (hnext : h.writeNext cut = some h') :
    h.Moves state [if cut.isNone then .wrote else .writeFailed] h' := by
  unfold writeNext at hnext
  cases hstep : h.step with
  | writeAction action =>
    cases cut with
    | none =>
      simp only [hstep, Option.some.injEq] at hnext
      exact hnext ▸ .wrote hstep
    | some n =>
      simp only [hstep, Option.some.injEq] at hnext
      exact hnext ▸ .writeFailed n hstep
  | _ => simp [hstep] at hnext

theorem countNext_moves {counted : StatsCounter × Logging} (hcounts : h.counts = some counted)
    (hnext : h.countNext = some h') (line : Option LogLine) :
    h.Moves state [.counted counted.1 counted.2 line] h' := by
  unfold counts at hcounts
  unfold countNext at hnext
  cases hstep : h.step with
  | count handled =>
    simp only [hstep, Option.some.injEq] at hcounts hnext
    subst hcounts
    exact hnext ▸ .count hstep
  | malformed =>
    simp only [hstep, Option.some.injEq] at hcounts hnext
    subst hcounts
    exact hnext ▸ .countMalformed hstep
  | _ => simp [hstep] at hnext

/-- What is decided is a request that was read, under the state that was loaded for it. -/
theorem dispatch_eq_some {clock : Clock} {fault : Fault} {d : Dispatch}
    (hd : h.dispatch clock fault = some d) : ∃ request current,
      h.step = .handleRequest request current ∧
        d = ⟨current.connectionInfo.database, request, current.config, current.limiter,
          clock, fault⟩ := by
  unfold dispatch at hd
  cases hstep : h.step with
  | handleRequest request current =>
    simp only [hstep, Option.some.injEq] at hd
    exact ⟨request, current, rfl, hd.symm⟩
  | _ => simp [hstep] at hd

end PolicyHandler

/-! ## The whole system -/

/-- The runtime drops tasks only after the main loop has returned. -/
theorem ConnectionSystem.dropTaskNext_returned {ν : Type*} {s s' : ConnectionSystem ν} {i : ℕ}
    (hnext : s.dropTaskNext i = some s') : s.main = .returned := by
  unfold dropTaskNext at hnext
  split_ifs at hnext with hreturned
  exact hreturned

/-- Nothing of a handler is seen. -/
def DaemonEvent.aside : DaemonEvent → Bool
  | counted counter _ _ => !handlerCounters.contains counter
  | warned _ | reported _ _ | stored _ _ | timedOut => true
  | _ => false

namespace DaemonSystem
variable {setup : ConnectionSetup} {s s' : DaemonSystem} {a : Action}

/-- What a step does to the handlers and to the database, and what is seen of it. -/
inductive Effect (s s' : DaemonSystem) (a : Action) : List DaemonEvent → Prop
  | aside {seen : List DaemonEvent} (hhandlers : s'.handlers = s.handlers)
      (hdatabases : s'.databases = s.databases) (hseen : ∀ e ∈ seen, e.aside) : Effect s s' a seen
  | spawned {accepted : Accepted} (handler : Option PolicyHandler)
      (hmain : s.slots.main = .spawn accepted)
      (hstart : ∀ h, handler = some h → ∃ stream, h = .start stream)
      (hhandlers : s'.handlers = s.handlers ++ [handler])
      (hdatabases : s'.databases = s.databases) :
      Effect s s' a []
  | moved {i : ℕ} {h h' : PolicyHandler} {seen : List DaemonEvent}
      (hi : s.handlers[i]? = some (some h)) (hmoves : h.Moves s.reload.state seen h')
      (hhandlers : s'.handlers = s.handlers.set i (some h'))
      (hdatabases : s'.databases = s.databases) :
      Effect s s' a seen
  | decided {i : ℕ} {h : PolicyHandler} {clock : Clock} {fault : Fault} {d : Dispatch}
      (hi : s.handlers[i]? = some (some h)) (hd : h.dispatch clock fault = some d)
      (hhandlers : s'.handlers =
        s.handlers.set i (some (h.decided d (d.handle s.databases.db).1)))
      (hdatabases : s'.databases = s.databases.step d) (haction : a = .handle i clock fault) :
      Effect s s' a [.decided d (d.handle s.databases.db).1]
  | ended {i : ℕ} {handler : Option PolicyHandler} (hi : s.handlers[i]? = some handler)
      (hreturned : ∀ h, handler = some h → h.step.isReturned)
      (hhandlers : s'.handlers = s.handlers.eraseIdx i) (hdatabases : s'.databases = s.databases) :
      Effect s s' a []
  | dropped {i : ℕ} {handler : Option PolicyHandler} (hi : s.handlers[i]? = some handler)
      (hreturned : s.slots.main = .returned)
      (hhandlers : s'.handlers = s.handlers.eraseIdx i) (hdatabases : s'.databases = s.databases) :
      Effect s s' a (handler.elim [] (fun h => [.dropped h.step]))
  | elsewhere (d : Dispatch) (hhandlers : s'.handlers = s.handlers)
      (hdatabases : s'.databases = s.databases.step d) (haction : a = .elsewhere d) :
      Effect s s' a []

theorem handler_eq_some {i : ℕ} {h : PolicyHandler} (hi : s.handler i = some h) :
    s.handlers[i]? = some (some h) ∧ s.slots.tasks[i]? = some ⟨.policy, true⟩ := by
  unfold handler at hi
  split_ifs at hi with htask
  exact ⟨Option.join_eq_some_iff.mp hi, htask⟩

theorem handlerNext_eq_some {i : ℕ} {step : PolicyHandler → Option PolicyHandler}
    (hnext : s.handlerNext i step = some s') : ∃ h h', s.handler i = some h ∧ step h = some h' ∧
      s' = s.setHandler i h' := by
  obtain ⟨h', hbind, rfl⟩ := Option.map_eq_some_iff.mp hnext
  obtain ⟨h, hi, hstep⟩ := Option.bind_eq_some_iff.mp hbind
  exact ⟨h, h', hi, hstep, rfl⟩

/-- A step of one handler that nothing else takes part in. -/
theorem handlerNext_effect {i : ℕ} {step : PolicyHandler → Option PolicyHandler}
    {see : PolicyHandler → List DaemonEvent}
    (hmoves : ∀ h h', step h = some h' → h.Moves s.reload.state (see h) h')
    (hnext : s.handlerNext i step = some s') :
    ∃ h, s.handler i = some h ∧ Effect s s' a (see h) := by
  obtain ⟨h, h', hi, hstep, rfl⟩ := handlerNext_eq_some hnext
  exact ⟨h, hi, .moved (handler_eq_some hi).1 (hmoves h h' hstep) rfl rfl⟩

theorem handleNext_eq_some {i : ℕ} {clock : Clock} {fault : Fault}
    (hnext : s.handleNext i clock fault = some s') : ∃ h d, s.handler i = some h ∧
      h.dispatch clock fault = some d ∧
      s' = { s.setHandler i (h.decided d (d.handle s.databases.db).1) with
        databases := s.databases.step d } := by
  obtain ⟨h, hi, hmap⟩ := Option.bind_eq_some_iff.mp hnext
  obtain ⟨d, hd, rfl⟩ := Option.map_eq_some_iff.mp hmap
  exact ⟨h, d, hi, hd, rfl⟩

theorem countNext_eq_some {i : ℕ} (hnext : s.countNext i = some s') : ∃ h h' counted slots,
    s.handler i = some h ∧ h.counts = some counted ∧ h.countNext = some h' ∧
      s.slots.countNext i counted.1 = some slots ∧
      s' = { s.setHandler i h' with slots := slots } := by
  obtain ⟨h, hi, hbind⟩ := Option.bind_eq_some_iff.mp hnext
  obtain ⟨counted, hcounts, hbind'⟩ := Option.bind_eq_some_iff.mp hbind
  obtain ⟨h', hcount, hmap⟩ := Option.bind_eq_some_iff.mp hbind'
  obtain ⟨slots, hslots, rfl⟩ := Option.map_eq_some_iff.mp hmap
  exact ⟨h, h', counted, slots, hi, hcounts, hcount, hslots, rfl⟩

theorem finishNext_eq_some {i : ℕ} (hnext : s.finishNext i = some s') : ∃ slots,
    s.slots.finishNext i = some slots ∧ s.handlers[i]?.join.all (fun h => h.step.isReturned) ∧
      s' = { s with slots := slots, handlers := s.handlers.eraseIdx i } := by
  unfold finishNext at hnext
  split_ifs at hnext with hreturned
  obtain ⟨slots, hslots, rfl⟩ := Option.map_eq_some_iff.mp hnext
  exact ⟨slots, hslots, hreturned, rfl⟩

theorem dropTaskNext_eq_some {i : ℕ} (hnext : s.dropTaskNext i = some s') : ∃ slots,
    s.slots.dropTaskNext i = some slots ∧
      s' = { s with slots := slots, handlers := s.handlers.eraseIdx i } := by
  obtain ⟨slots, hslots, rfl⟩ := Option.map_eq_some_iff.mp hnext
  exact ⟨slots, hslots, rfl⟩

/-- The main loop past the receipt of a connection takes a step of the connection system, and
its spawn adds a handler. -/
theorem mainNext_eq_some {stream : List UInt8} (hnext : s.mainNext stream = some s') :
    s.slots.main ≠ .draining ∧ ∃ slots, s.slots.mainNext = some slots ∧
      ((s' = { s with slots := slots } ∧ ∀ accepted, s.slots.main ≠ .spawn accepted) ∨
        ∃ accepted, s.slots.main = .spawn accepted ∧ s' = { s with
          slots := slots
          handlers := s.handlers ++
            [if accepted = .policy then some (PolicyHandler.start stream) else none] }) := by
  unfold mainNext at hnext
  cases hmain : s.slots.main with
  | draining => simp [hmain] at hnext
  | spawn accepted =>
    simp only [hmain] at hnext
    obtain ⟨slots, hslots, rfl⟩ := Option.map_eq_some_iff.mp hnext
    exact ⟨by simp, slots, hslots, .inr ⟨accepted, rfl, rfl⟩⟩
  | _ =>
    simp only [hmain] at hnext
    obtain ⟨slots, hslots, rfl⟩ := Option.map_eq_some_iff.mp hnext
    exact ⟨by simp, slots, hslots, .inl ⟨rfl, by simp⟩⟩

theorem drainedNext_eq_some {timedOut : Bool} (hnext : s.drainedNext timedOut = some s') :
    s.slots.main = .draining ∧ (timedOut = true ∨ s.handlers = []) ∧
      ∃ slots, s.slots.mainNext = some slots ∧ s' = { s with slots := slots } := by
  unfold drainedNext at hnext
  split_ifs at hnext with hdrained
  obtain ⟨slots, hslots, rfl⟩ := Option.map_eq_some_iff.mp hnext
  exact ⟨hdrained.1, hdrained.2.2, slots, hslots, rfl⟩

theorem mainEvents_aside : ∀ e ∈ s.mainEvents, e.aside := by
  intro e he
  unfold mainEvents at he
  split at he
  · obtain rfl := List.mem_singleton.mp he
    rfl
  · obtain rfl := List.mem_singleton.mp he
    rfl
  · obtain rfl := List.mem_singleton.mp he
    rfl
  · cases he

theorem reportEvents_aside : ∀ e ∈ s.reportEvents, e.aside := by
  intro e he
  unfold reportEvents at he
  split at he
  · obtain rfl := List.mem_singleton.mp he
    rfl
  · obtain rfl := List.mem_singleton.mp he
    rfl
  · cases he

/-- A step of the connection system or of the reload system alone. -/
theorem effect_of_map {σ : Type*} {next? : Option σ} {put : σ → DaemonSystem}
    {seen : List DaemonEvent} (hnext : next?.map put = some s')
    (hhandlers : ∀ x, (put x).handlers = s.handlers)
    (hdatabases : ∀ x, (put x).databases = s.databases)
    (hseen : ∀ e ∈ seen, e.aside) : Effect s s' a seen := by
  obtain ⟨x, _, rfl⟩ := Option.map_eq_some_iff.mp hnext
  exact .aside (hhandlers x) (hdatabases x) hseen

theorem next_effect (hnext : next setup s a = some s') :
    Effect s s' a (s.events a) := by
  have hnone : ∀ e ∈ ([] : List DaemonEvent), e.aside := by simp
  cases a with
  | accept accepted =>
    simp only [next] at hnext
    split_ifs at hnext
    exact effect_of_map hnext (fun _ => rfl) (fun _ => rfl) hnone
  | acceptError accepted =>
    simp only [next] at hnext
    split_ifs at hnext
    refine effect_of_map hnext (fun _ => rfl) (fun _ => rfl) ?_
    intro e he
    cases accepted with
    | policy =>
      obtain rfl := List.mem_singleton.mp he
      rfl
    | control =>
      obtain rfl := List.mem_singleton.mp he
      rfl
  | sighup =>
    simp only [next] at hnext
    split_ifs at hnext
    exact effect_of_map hnext (fun _ => rfl) (fun _ => rfl) hnone
  | shutdown =>
    simp only [next] at hnext
    split_ifs at hnext
    exact effect_of_map hnext (fun _ => rfl) (fun _ => rfl) hnone
  | main stream =>
    obtain ⟨_, slots, _, ⟨rfl, _⟩ | ⟨accepted, hmain, rfl⟩⟩ := mainNext_eq_some hnext
    · exact .aside rfl rfl mainEvents_aside
    · have hevents : s.events (.main stream) = [] := by
        show s.mainEvents = []
        unfold mainEvents
        rw [hmain]
      rw [hevents]
      refine .spawned _ hmain ?_ rfl rfl
      intro h hh
      split_ifs at hh
      exact ⟨stream, (Option.some.inj hh).symm⟩
  | reloadMain => exact effect_of_map hnext (fun _ => rfl) (fun _ => rfl) hnone
  | cancel =>
    change s.cancelNext = some s' at hnext
    unfold cancelNext at hnext
    split_ifs at hnext
    obtain rfl := Option.some.inj hnext
    exact .aside rfl rfl hnone
  | drained timedOut =>
    obtain ⟨_, _, slots, _, rfl⟩ := drainedNext_eq_some hnext
    refine .aside rfl rfl ?_
    cases timedOut with
    | true =>
      intro e he
      obtain rfl := List.mem_singleton.mp he
      rfl
    | false => exact hnone
  | poll i => exact effect_of_map hnext (fun _ => rfl) (fun _ => rfl) hnone
  | read i =>
    obtain ⟨h, hi, heffect⟩ := handlerNext_effect (fun _ _ => PolicyHandler.readNext_moves) hnext
    simpa [events, hi] using heffect
  | reset i =>
    obtain ⟨h, hi, heffect⟩ := handlerNext_effect (fun _ _ => PolicyHandler.resetNext_moves) hnext
    exact heffect
  | cancelled i =>
    simp only [next] at hnext
    split_ifs at hnext
    obtain ⟨h, hi, heffect⟩ := handlerNext_effect (fun _ _ => PolicyHandler.cancelNext_moves) hnext
    exact heffect
  | load i =>
    obtain ⟨h, hi, heffect⟩ := handlerNext_effect (fun _ _ => PolicyHandler.loadNext_moves) hnext
    exact heffect
  | handle i clock fault =>
    obtain ⟨h, d, hi, hd, rfl⟩ := handleNext_eq_some hnext
    have hevents : s.events (.handle i clock fault) = [.decided d (d.handle s.databases.db).1] := by
      simp [events, hi, hd]
    rw [hevents]
    exact .decided (handler_eq_some hi).1 hd rfl rfl rfl
  | count i =>
    obtain ⟨h, h', counted, slots, hi, hcounts, hcount, _, rfl⟩ := countNext_eq_some hnext
    have hmoves : h.Moves s.reload.state _ h' := PolicyHandler.countNext_moves hcounts hcount
      (counted.2.line (s.slots.stats counted.1))
    have hevents : s.events (.count i) = s.bumped counted.1 counted.2 := by
      simp [events, hi, hcounts]
    rw [hevents]
    exact .moved (handler_eq_some hi).1 hmoves rfl rfl
  | write i cut =>
    obtain ⟨h, hi, heffect⟩ := handlerNext_effect (fun _ _ => PolicyHandler.writeNext_moves) hnext
    exact heffect
  | finish i =>
    obtain ⟨slots, _, hreturned, rfl⟩ := finishNext_eq_some hnext
    cases hi : s.handlers[i]? with
    | none =>
      refine .aside ?_ rfl hnone
      exact List.eraseIdx_of_length_le (List.getElem?_eq_none_iff.mp hi)
    | some handler =>
      refine .ended hi ?_ rfl rfl
      rintro h rfl
      simpa [hi] using hreturned
  | dropTask i =>
    obtain ⟨slots, hslots, rfl⟩ := dropTaskNext_eq_some hnext
    cases hi : s.handlers[i]? with
    | none =>
      have hevents : s.events (.dropTask i) = [] := by simp [events, hi]
      rw [hevents]
      refine .aside ?_ rfl hnone
      exact List.eraseIdx_of_length_le (List.getElem?_eq_none_iff.mp hi)
    | some handler =>
      have hevents : s.events (.dropTask i) = handler.elim [] (fun h => [.dropped h.step]) := by
        simp [events, hi]
      rw [hevents]
      exact .dropped hi (ConnectionSystem.dropTaskNext_returned hslots) rfl rfl
  | worker i file connects => exact effect_of_map hnext (fun _ => rfl) (fun _ => rfl) hnone
  | tick => exact effect_of_map hnext (fun _ => rfl) (fun _ => rfl) hnone
  | report => exact effect_of_map hnext (fun _ => rfl) (fun _ => rfl) reportEvents_aside
  | elsewhere dispatch =>
    obtain rfl := Option.some.inj hnext
    exact .elsewhere dispatch rfl rfl rfl

/-- What a handler is about to count was decided on some request. -/
def HandlersDecided (s : DaemonSystem) : Prop :=
  ∀ handler ∈ s.handlers, ∀ h, handler = some h → ∀ handled, h.step = .count handled →
    ∃ (d : Delivery) (db : Db), handled = (d.handle db).1

theorem HandlersDecided.step (hdecided : s.HandlersDecided) (hnext : next setup s a = some s') :
    s'.HandlersDecided := by
  have heffect := next_effect hnext
  generalize s.events a = seen at heffect
  unfold HandlersDecided at *
  cases heffect with
  | aside hhandlers _ _ | elsewhere d hhandlers _ _ =>
    rw [hhandlers]
    exact hdecided
  | spawned handler _ hstart hhandlers _ =>
    rw [hhandlers]
    refine TaskPool.forall_snoc hdecided ?_
    rintro h' rfl handled hstep
    obtain ⟨stream, rfl⟩ := hstart h' rfl
    cases hstep
  | @moved i h h' _ hi hmoves hhandlers _ =>
    rw [hhandlers]
    refine TaskPool.forall_set hdecided i ?_
    rintro h'' ⟨⟩ handled hstep
    cases hmoves <;> cases hstep
  | @decided i h clock fault d hi hd hhandlers _ _ =>
    rw [hhandlers]
    refine TaskPool.forall_set hdecided i ?_
    rintro h' ⟨⟩ handled hstep
    cases hstep
    exact ⟨d.delivery, _, rfl⟩
  | ended hi _ hhandlers _ | dropped hi _ hhandlers _ =>
    rw [hhandlers]
    exact TaskPool.forall_eraseIdx hdecided _

end DaemonSystem

end PostfixRatelimitd
