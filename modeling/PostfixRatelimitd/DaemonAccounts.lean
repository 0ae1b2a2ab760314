import PostfixRatelimitd.PolicyConversation

/-!
# The daemon's accounts

Every request that was read is decided, counted and answered once, unless its task is still
at it or was dropped; what a handler adds to such an account with each of its steps, the pool
of all handlers adds to it. The counters hold what was counted and not yet reported. After a
shutdown that waited for the tasks nothing is left over.
-/
namespace PostfixRatelimitd
open TaskPool

/-! ## Accounts of the handlers -/

/-- An account of what handlers take in and give out, by where they stand and by what is seen
of their steps. -/
structure HandlerLedger where
  weight : HandlerStep → ℕ
  gain : DaemonEvent → ℕ
  loss : DaemonEvent → ℕ
  select : weight .select = 0
  returned : ∀ step, step.isReturned → weight step = 0
  read : ∀ request, weight (.loadFull request) + loss .read = gain .read
  malformed : weight .malformed + loss .malformed = gain .malformed
  load : ∀ request state, weight (.handleRequest request state) = weight (.loadFull request)
  decided : ∀ request state d handled, weight (.count handled) + loss (.decided d handled) =
    weight (.handleRequest request state) + gain (.decided d handled)
  count : ∀ handled kind line,
    weight (.writeAction handled.action) + loss (.counted handled.counter kind line) =
      weight (.count handled) + gain (.counted handled.counter kind line)
  countMalformed : ∀ kind line, loss (.counted .malformed kind line) =
    weight .malformed + gain (.counted .malformed kind line)
  wrote : ∀ action, loss .wrote = weight (.writeAction action) + gain .wrote
  writeFailed : ∀ action, loss .writeFailed = weight (.writeAction action) + gain .writeFailed
  dropped : ∀ step, loss (.dropped step) = weight step + gain (.dropped step)
  aside : ∀ e, e.aside → loss e = gain e

namespace HandlerLedger
variable (ledger : HandlerLedger)

/-- What a handler still owes; a control connection owes nothing. -/
def owed (handler : Option PolicyHandler) : ℕ := handler.elim 0 (fun h => ledger.weight h.step)

theorem moves {state : RuntimeState} {h h' : PolicyHandler} {seen : List DaemonEvent}
    (hmoves : h.Moves state seen h') :
    ledger.weight h'.step + total ledger.loss seen =
      ledger.weight h.step + total ledger.gain seen := by
  have hreturned : ledger.weight .returned = 0 := ledger.returned .returned rfl
  cases hmoves with
  | read hstep hread =>
    rw [hstep, ledger.select]
    simpa using ledger.read _
  | ended hstep hread =>
    rw [hstep, ledger.select]
    simpa using hreturned
  | unreadable hstep hread =>
    rw [hstep, ledger.select]
    simpa using ledger.malformed
  | reset hstep =>
    rw [hstep, ledger.select]
    simpa using ledger.malformed
  | cancelled hstep =>
    rw [hstep, ledger.select]
    simpa using hreturned
  | load hstep =>
    rw [hstep]
    simpa using ledger.load _ _
  | count hstep =>
    rw [hstep]
    simpa using ledger.count _ _ _
  | countMalformed hstep =>
    rw [hstep]
    simpa [hreturned] using ledger.countMalformed _ _
  | wrote hstep =>
    rw [hstep]
    simpa [ledger.select] using ledger.wrote _
  | writeFailed n hstep =>
    rw [hstep]
    simpa [hreturned] using ledger.writeFailed _

theorem aside_balance {seen : List DaemonEvent} (h : ∀ e ∈ seen, e.aside) :
    total ledger.loss seen = total ledger.gain seen := by
  unfold total
  rw [List.map_congr_left (fun e he => ledger.aside e (h e he))]

theorem effect {s s' : DaemonSystem} {a : DaemonSystem.Action} {seen : List DaemonEvent}
    (heffect : DaemonSystem.Effect s s' a seen) :
    total ledger.owed s'.handlers + total ledger.loss seen =
      total ledger.owed s.handlers + total ledger.gain seen := by
  cases heffect with
  | aside hhandlers _ hseen => rw [hhandlers, ledger.aside_balance hseen]
  | spawned handler _ hstart hhandlers _ =>
    have hnothing : ledger.owed handler = 0 := by
      cases handler with
      | none => rfl
      | some h =>
        obtain ⟨stream, rfl⟩ := hstart h rfl
        exact ledger.select
    rw [hhandlers, total_append]
    simp [hnothing]
  | @moved i h h' _ hi hmoves hhandlers _ =>
    have hset := total_set ledger.owed hi (some h')
    have howed : ledger.owed (some h') + total ledger.loss seen =
        ledger.owed (some h) + total ledger.gain seen := ledger.moves hmoves
    rw [hhandlers]
    omega
  | @decided i h clock fault d hi hd hhandlers _ _ =>
    obtain ⟨request, current, hstep, _⟩ := PolicyHandler.dispatch_eq_some hd
    have hset := total_set ledger.owed hi (some (h.decided d (d.handle s.databases.db).1))
    have hdecided := ledger.decided request current d (d.handle s.databases.db).1
    have hbefore : ledger.owed (some h) = ledger.weight (.handleRequest request current) :=
      congrArg ledger.weight hstep
    have hafter : ledger.owed (some (h.decided d (d.handle s.databases.db).1)) =
        ledger.weight (.count (d.handle s.databases.db).1) := rfl
    rw [hhandlers, total_cons, total_cons, total_nil, total_nil]
    omega
  | @ended i handler hi hreturned hhandlers _ =>
    have herase := total_eraseIdx ledger.owed hi
    have hnothing : ledger.owed handler = 0 := by
      cases handler with
      | none => rfl
      | some h => exact ledger.returned h.step (hreturned h rfl)
    rw [hhandlers, total_nil, total_nil]
    omega
  | @dropped i handler hi _ hhandlers _ =>
    have herase := total_eraseIdx ledger.owed hi
    rw [hhandlers]
    cases handler with
    | none =>
      have hnothing : ledger.owed none = 0 := rfl
      simp only [Option.elim_none, total_nil]
      omega
    | some h =>
      have hdropped := ledger.dropped h.step
      have howed : ledger.owed (some h) = ledger.weight h.step := rfl
      simp only [Option.elim_some, total_cons, total_nil]
      omega
  | elsewhere d hhandlers _ _ =>
    rw [hhandlers]
    rfl

/-- Over a run, what was taken in is what was given out and what is still owed. -/
theorem balanced {setup : ConnectionSetup} {config : Config}
    (ok : DaemonSystem → DaemonSystem.Action → Bool) {s : DaemonSystem} {log : List DaemonEvent}
    (h : Reachable (recording (DaemonSystem.next setup) DaemonSystem.events)
      (fun x a => ok x.1 a) (.start config, []) (s, log)) :
    total ledger.owed s.handlers + total ledger.loss log = total ledger.gain log :=
  h.balance (fun s => total ledger.owed s.handlers) ledger.gain ledger.loss rfl
    (fun _ _ _ _ hnext => ledger.effect (DaemonSystem.next_effect hnext))

end HandlerLedger

/-! ## Requests that were read -/

namespace HandlerStep

/-- A request is read and not yet decided. -/
def undecided : HandlerStep → Bool
  | loadFull _ | handleRequest _ _ => true
  | _ => false

/-- What is decided, or could not be read, is not yet counted in this counter. -/
def uncounted (counter : StatsCounter) : HandlerStep → Bool
  | count handled => handled.counter == counter
  | malformed => counter == .malformed
  | _ => false

/-- A request is decided and not yet answered. -/
def unanswered : HandlerStep → Bool
  | count _ | writeAction _ => true
  | _ => false

end HandlerStep

namespace DaemonEvent

def isRead : DaemonEvent → Bool
  | read => true
  | _ => false

def isDecided : DaemonEvent → Bool
  | decided _ _ => true
  | _ => false

/-- What this counter counts: requests decided so, or those that could not be read. -/
def isFor (counter : StatsCounter) : DaemonEvent → Bool
  | decided _ handled => handled.counter == counter
  | malformed => counter == .malformed
  | _ => false

def isCounted (counter : StatsCounter) : DaemonEvent → Bool
  | counted c _ _ => c == counter
  | _ => false

/-- An answer is written, or the attempt fails. -/
def isAnswered : DaemonEvent → Bool
  | wrote | writeFailed => true
  | _ => false

/-- A task is dropped where it stands. -/
def droppedWhile (standing : HandlerStep → Bool) : DaemonEvent → Bool
  | dropped step => standing step
  | _ => false

/-- What a report or a reset took from a counter. -/
def taken (counter : StatsCounter) : DaemonEvent → UInt64
  | reported c amount | stored c amount => if c = counter then amount else 0
  | _ => 0

end DaemonEvent

namespace HandlerLedger

/-- Requests are read and decided. -/
def decisions : HandlerLedger where
  weight step := if step.undecided then 1 else 0
  gain e := if e.isRead then 1 else 0
  loss e := if e.isDecided || e.droppedWhile HandlerStep.undecided then 1 else 0
  select := rfl
  returned step h := by cases step <;> first | rfl | cases h
  read _ := rfl
  malformed := rfl
  load _ _ := rfl
  decided _ _ _ _ := rfl
  count _ _ _ := rfl
  countMalformed _ _ := rfl
  wrote _ := rfl
  writeFailed _ := rfl
  dropped step := by cases step <;> rfl
  aside e h := by cases e <;> first | rfl | cases h

/-- Requests are decided, or cannot be read, and are counted. -/
def counts (counter : StatsCounter) (hcounter : counter ∈ handlerCounters) : HandlerLedger where
  weight step := if step.uncounted counter then 1 else 0
  gain e := if e.isFor counter then 1 else 0
  loss e := if e.isCounted counter || e.droppedWhile (HandlerStep.uncounted counter) then 1 else 0
  select := rfl
  returned step h := by cases step <;> first | rfl | cases h
  read _ := rfl
  malformed := by simp [HandlerStep.uncounted, DaemonEvent.isFor, DaemonEvent.isCounted,
    DaemonEvent.droppedWhile]
  load _ _ := rfl
  decided _ _ _ _ := by simp [HandlerStep.uncounted, DaemonEvent.isFor, DaemonEvent.isCounted,
    DaemonEvent.droppedWhile]
  count _ _ _ := by simp [HandlerStep.uncounted, DaemonEvent.isFor, DaemonEvent.isCounted,
    DaemonEvent.droppedWhile]
  countMalformed _ _ := by
    by_cases h : counter = .malformed
    · subst h
      rfl
    · simp [HandlerStep.uncounted, DaemonEvent.isFor, DaemonEvent.isCounted,
        DaemonEvent.droppedWhile, h, Ne.symm h]
  wrote _ := rfl
  writeFailed _ := rfl
  dropped step := by simp [DaemonEvent.isCounted, DaemonEvent.droppedWhile, DaemonEvent.isFor]
  aside e h := by
    cases e with
    | counted c kind line =>
      have hother : c ≠ counter := by
        rintro rfl
        simp [DaemonEvent.aside, hcounter] at h
      simp [DaemonEvent.isCounted, DaemonEvent.droppedWhile, DaemonEvent.isFor, hother]
    | warned kind | reported c n | stored c n | timedOut => rfl
    | _ => cases h

/-- Requests are decided and answered. -/
def answers : HandlerLedger where
  weight step := if step.unanswered then 1 else 0
  gain e := if e.isDecided then 1 else 0
  loss e := if e.isAnswered || e.droppedWhile HandlerStep.unanswered then 1 else 0
  select := rfl
  returned step h := by cases step <;> first | rfl | cases h
  read _ := rfl
  malformed := rfl
  load _ _ := rfl
  decided _ _ _ _ := rfl
  count _ _ _ := rfl
  countMalformed _ _ := rfl
  wrote _ := rfl
  writeFailed _ := rfl
  dropped step := by cases step <;> rfl
  aside e h := by cases e <;> first | rfl | cases h

end HandlerLedger

namespace DaemonSystem
variable {setup : ConnectionSetup} {config : Config} {s : DaemonSystem} {log : List DaemonEvent}

/-- How many handlers stand so. -/
def standing (s : DaemonSystem) (p : HandlerStep → Bool) : ℕ :=
  s.handlers.countP (fun handler => handler.any (fun h => p h.step))

theorem total_owed {ledger : HandlerLedger} {p : HandlerStep → Bool}
    (h : ∀ step, ledger.weight step = if p step then 1 else 0) :
    total ledger.owed s.handlers = s.standing p := by
  unfold standing
  rw [← total_indicator_nat]
  congr 1
  funext handler
  cases handler with
  | none => rfl
  | some handler => exact h handler.step

/-- Exclusive events of one account are counted apart. -/
theorem countP_or {p q : DaemonEvent → Bool} (hexclusive : ∀ e, p e → q e = false)
    (log : List DaemonEvent) : log.countP (fun e => p e || q e) = log.countP p + log.countP q := by
  induction log with
  | nil => rfl
  | cons e log ih =>
    rw [List.countP_cons, List.countP_cons, List.countP_cons, ih]
    cases hp : p e with
    | false => simp; omega
    | true => simp [hexclusive e hp]; omega

/-- What a truthful event does to a counter: one more, or back to none. -/
theorem apply_balance {stats : StatsCounter → UInt64} {e : DaemonEvent} (he : e.Truthful stats)
    (counter : StatsCounter) :
    e.apply stats counter + e.taken counter =
      stats counter + if e.isCounted counter then 1 else 0 := by
  cases e with
  | counted c kind line =>
    by_cases hc : counter = c
    · subst hc
      simp [DaemonEvent.apply, ConnectionSystem.bump, DaemonEvent.isCounted, DaemonEvent.taken]
    · simp [DaemonEvent.apply, ConnectionSystem.bump, DaemonEvent.isCounted, DaemonEvent.taken, hc,
        Ne.symm hc]
  | reported c amount | stored c amount =>
    obtain rfl : amount = stats c := he
    by_cases hc : counter = c
    · subst hc
      simp [DaemonEvent.apply, DaemonEvent.isCounted, DaemonEvent.taken]
    · simp [DaemonEvent.apply, DaemonEvent.isCounted, DaemonEvent.taken, hc, Ne.symm hc]
  | _ => rfl

/-- All that was counted is still in its counter or was taken from there. -/
theorem counted_eq (ok : DaemonSystem → Action → Bool)
    (h : Reachable (recording (next setup) events) (fun x a => ok x.1 a) (start config, [])
      (s, log))
    (counter : StatsCounter) :
    s.slots.stats counter + (log.map (DaemonEvent.taken counter)).sum =
      (log.countP (DaemonEvent.isCounted counter) : UInt64) := by
  have hbalance := h.balance (fun s => s.slots.stats counter)
    (fun e => if e.isCounted counter then (1 : UInt64) else 0) (DaemonEvent.taken counter) rfl ?_
  · exact hbalance.trans (total_indicator _ _)
  · intro s a s' _ hnext
    have hstats := congrFun (next_stats hnext) counter
    rcases events_truthful s a with hquiet | ⟨e, hevents, he⟩
    · rw [hquiet] at hstats ⊢
      exact congrArg (· + 0) hstats
    · rw [hevents] at hstats ⊢
      have hbump := apply_balance he counter
      simp only [total_cons, total_nil, add_zero]
      rw [hstats]
      exact hbump

section Accounts
variable (ok : DaemonSystem → Action → Bool)

theorem not_droppedWhile {p : DaemonEvent → Bool} (hp : ∀ step, p (.dropped step) = false)
    (standing : HandlerStep → Bool) (e : DaemonEvent) (he : p e) :
    e.droppedWhile standing = false := by
  cases e with
  | dropped step =>
    rw [hp step] at he
    cases he
  | _ => rfl

theorem decisions_balanced (h : Reachable (recording (next setup) events) (fun x a => ok x.1 a)
    (start config, []) (s, log)) :
    log.countP DaemonEvent.isRead = log.countP DaemonEvent.isDecided +
      s.standing HandlerStep.undecided +
      log.countP (DaemonEvent.droppedWhile HandlerStep.undecided) := by
  have hbalanced := HandlerLedger.decisions.balanced ok h
  rw [total_owed (fun _ => rfl)] at hbalanced
  simp only [HandlerLedger.decisions] at hbalanced
  rw [total_indicator_nat, total_indicator_nat, countP_or (not_droppedWhile (fun _ => rfl) _)]
    at hbalanced
  omega

theorem counts_balanced (h : Reachable (recording (next setup) events) (fun x a => ok x.1 a)
    (start config, []) (s, log)) {counter : StatsCounter} (hcounter : counter ∈ handlerCounters) :
    log.countP (DaemonEvent.isFor counter) = log.countP (DaemonEvent.isCounted counter) +
      s.standing (HandlerStep.uncounted counter) +
      log.countP (DaemonEvent.droppedWhile (HandlerStep.uncounted counter)) := by
  have hbalanced := (HandlerLedger.counts counter hcounter).balanced ok h
  rw [total_owed (fun _ => rfl)] at hbalanced
  simp only [HandlerLedger.counts] at hbalanced
  rw [total_indicator_nat, total_indicator_nat, countP_or (not_droppedWhile (fun _ => rfl) _)]
    at hbalanced
  omega

theorem answers_balanced (h : Reachable (recording (next setup) events) (fun x a => ok x.1 a)
    (start config, []) (s, log)) :
    log.countP DaemonEvent.isDecided = log.countP DaemonEvent.isAnswered +
      s.standing HandlerStep.unanswered +
      log.countP (DaemonEvent.droppedWhile HandlerStep.unanswered) := by
  have hbalanced := HandlerLedger.answers.balanced ok h
  rw [total_owed (fun _ => rfl)] at hbalanced
  simp only [HandlerLedger.answers] at hbalanced
  rw [total_indicator_nat, total_indicator_nat, countP_or (not_droppedWhile (fun _ => rfl) _)]
    at hbalanced
  omega

end Accounts

/-- Every request that was read is decided, or its handler is still at it, or was dropped at it;
and so for counting what was decided or could not be read, and for the answers. What was counted
is in its counter or was taken from there by a report. -/
theorem requests_accounted (setup : ConnectionSetup) (config : Config) (s : DaemonSystem)
    (log : List DaemonEvent)
    (h : Reachable (recording (next setup) events) (fun _ _ => true) (start config, []) (s, log)) :
    log.countP DaemonEvent.isRead = log.countP DaemonEvent.isDecided +
        s.standing HandlerStep.undecided +
        log.countP (DaemonEvent.droppedWhile HandlerStep.undecided) ∧
      (∀ counter ∈ handlerCounters, log.countP (DaemonEvent.isFor counter) =
        log.countP (DaemonEvent.isCounted counter) + s.standing (HandlerStep.uncounted counter) +
          log.countP (DaemonEvent.droppedWhile (HandlerStep.uncounted counter))) ∧
      log.countP DaemonEvent.isDecided = log.countP DaemonEvent.isAnswered +
        s.standing HandlerStep.unanswered +
        log.countP (DaemonEvent.droppedWhile HandlerStep.unanswered) ∧
      ∀ counter, s.slots.stats counter + (log.map (DaemonEvent.taken counter)).sum =
        (log.countP (DaemonEvent.isCounted counter) : UInt64) :=
  ⟨decisions_balanced (fun _ _ => true) h, fun _ => counts_balanced (fun _ _ => true) h,
    answers_balanced (fun _ _ => true) h, counted_eq (fun _ _ => true) h⟩

/-- Of two messages that were sent at once the first is decided, counted and answered, and the
second is read: one handler is still at it. -/
theorem requests_accounted_twice :
    let stream := [oneRecipient, oneRecipient].flatMap Request.encodeRequest
    ∃ s log, replay (recording (next ⟨true, true⟩) events) (fun _ _ => true) (start oneAMinute, [])
        (acceptActions stream ++ serveActions 0 ⟨0, by decide⟩ .none ++ [.read 0]) =
          some (s, log) ∧
      log.countP DaemonEvent.isRead = 2 ∧ log.countP DaemonEvent.isDecided = 1 ∧
      s.standing HandlerStep.undecided = 1 ∧
      log.countP (DaemonEvent.isFor .accepted) = 1 ∧
      log.countP (DaemonEvent.isCounted .accepted) = 1 ∧
      s.standing (HandlerStep.uncounted .accepted) = 0 ∧
      log.countP DaemonEvent.isAnswered = 1 ∧
      s.slots.stats .accepted + (log.map (DaemonEvent.taken .accepted)).sum = 1 := by
  intro stream
  let rest := Request.encodeRequest oneRecipient ++ []
  let s₀ := accepted oneAMinute stream
  let handled := (oneDispatch.handle s₀.databases.db).1
  let h₁ := answered (.start stream) rest oneDispatch handled
  let s₁ := s₀.served 0 (.start stream) rest oneDispatch
  let log : List DaemonEvent := [.wrote, .counted handled.counter handled.logging
    (handled.logging.line (s₀.slots.stats handled.counter)), .decided oneDispatch handled, .read,
    .counted .connectionsAccepted .silent none]
  have hi₁ : s₁.handler 0 = some h₁ := handler_served rfl rest oneDispatch
  obtain ⟨hnext, hseen⟩ := read_next ⟨true, true⟩ hi₁ rfl (readFrom_oneRecipient [])
  have hread : replay (recording (next ⟨true, true⟩) events) (fun _ _ => true) (s₁, log) [.read 0] =
      some (_, s₁.events (.read 0) ++ log) := replay_cons rfl (recording_of_next hnext) []
  rw [hseen] at hread
  have hrun := replay_trans (@replay_first ⟨true, true⟩ stream rest rfl) hread
  obtain ⟨s, log', hreplay, hlog⟩ : ∃ s log', replay (recording (next ⟨true, true⟩) events)
      (fun _ _ => true) (start oneAMinute, [])
        (acceptActions stream ++ serveActions 0 ⟨0, by decide⟩ .none ++ [.read 0]) =
          some (s, log') ∧ log' = .read :: log := ⟨_, _, hrun, rfl⟩
  have hcounter : handled.counter = .accepted := by decide +kernel
  have hread : log'.countP DaemonEvent.isRead = 2 := by rw [hlog]; rfl
  have hdecided : log'.countP DaemonEvent.isDecided = 1 := by rw [hlog]; rfl
  have hfor : log'.countP (DaemonEvent.isFor .accepted) = 1 := by
    simp [hlog, log, DaemonEvent.isFor, hcounter]
  have hcounted : log'.countP (DaemonEvent.isCounted .accepted) = 1 := by
    simp [hlog, log, DaemonEvent.isCounted, hcounter]
  have hkept : log'.countP (DaemonEvent.droppedWhile HandlerStep.undecided) = 0 := by
    rw [hlog]; rfl
  obtain ⟨hreads, hcounts, _, hstats⟩ := requests_accounted ⟨true, true⟩ oneAMinute s log'
    (Reachable.start.of_replay _ hreplay)
  have huncounted := hcounts .accepted (by decide)
  have hall := hstats .accepted
  rw [hcounted] at hall
  exact ⟨s, log', hreplay, hread, hdecided, by omega, hfor, hcounted, by omega,
    by rw [hlog]; rfl, hall⟩

/-! ## Shutdown -/

theorem Effect.dropped_of_mem {s' : DaemonSystem} {a : Action} {seen : List DaemonEvent}
    {step : HandlerStep} (heffect : Effect s s' a seen) (hmem : .dropped step ∈ seen) :
    s.slots.main = .returned ∧ s.handlers ≠ [] := by
  cases heffect with
  | aside _ _ hseen => cases hseen _ hmem
  | spawned | ended | elsewhere => cases hmem
  | moved _ hmoves _ _ => cases hmoves <;> simp at hmem
  | decided => simp at hmem
  | dropped hi hreturned _ _ =>
    refine ⟨hreturned, ?_⟩
    intro hnil
    simp [hnil] at hi

/-- A daemon that has returned and has no handlers gets none. -/
theorem Effect.handlers_nil {s' : DaemonSystem} {a : Action} {seen : List DaemonEvent}
    (heffect : Effect s s' a seen) (hreturned : s.slots.main = .returned) (hnil : s.handlers = []) :
    s'.handlers = [] := by
  cases heffect with
  | aside hhandlers _ _ | elsewhere d hhandlers _ _ => rw [hhandlers, hnil]
  | spawned _ hmain _ _ _ =>
    rw [hreturned] at hmain
    cases hmain
  | moved hi _ hhandlers _ | decided hi _ hhandlers _ _ | ended hi _ hhandlers _
  | dropped hi _ hhandlers _ => simp [hnil] at hi

/-- The main loop returns from the wait for its tasks only. -/
theorem returned_of_next {s' : DaemonSystem} {a : Action} (hnext : next setup s a = some s')
    (hreturned : s'.slots.main = .returned) :
    s.slots.main = .returned ∨ .timedOut ∈ s.events a ∨ s'.handlers = [] := by
  have hslots := (next_parts hnext).1
  cases a with
  | accept accepted =>
    simp [ConnectionSystem.acceptNext_eq hslots] at hreturned
  | acceptError accepted =>
    rw [ConnectionSystem.acceptErrorNext_eq hslots] at hreturned
    exact .inl hreturned
  | shutdown => simp [ConnectionSystem.shutdownNext_eq hslots] at hreturned
  | main stream =>
    obtain ⟨hdraining, _⟩ := mainNext_eq_some hnext
    change s.slots.mainNext = some s'.slots at hslots
    unfold ConnectionSystem.mainNext at hslots
    cases hmain : s.slots.main with
    | draining => exact absurd hmain hdraining
    | select | returned => simp [hmain] at hslots
    | fetchAdd accepted =>
      simp only [hmain, Option.some.injEq] at hslots
      rw [← hslots] at hreturned
      simp only at hreturned
      split_ifs at hreturned
    | _ =>
      simp only [hmain, Option.some.injEq] at hslots
      rw [← hslots] at hreturned
      cases hreturned
  | drained timedOut =>
    obtain ⟨_, hdone, slots, _, rfl⟩ := drainedNext_eq_some hnext
    rcases hdone with rfl | hnil
    · exact .inr (.inl List.mem_cons_self)
    · exact .inr (.inr hnil)
  | poll i | finish i | dropTask i | tick | report =>
    exact .inl ((ConnectionSystem.next_main hslots rfl).symm.trans hreturned)
  | count i =>
    obtain ⟨_, _, counted, _, hi, hcounts, _⟩ := countNext_eq_some hnext
    simp only [slotAction, hi, hcounts, Option.bind_some, Option.map_some] at hslots
    exact .inl ((ConnectionSystem.next_main hslots rfl).symm.trans hreturned)
  | _ => exact .inl ((congrArg ConnectionSystem.main hslots).symm.trans hreturned)

/-- As long as the wait for the tasks was not cut short, none was dropped, and none is left. -/
def Drains (s : DaemonSystem) (log : List DaemonEvent) : Prop :=
  .timedOut ∈ log ∨
    ((s.slots.main = .returned → s.handlers = []) ∧ ∀ step, .dropped step ∉ log)

theorem Drains.step {s' : DaemonSystem} {a : Action} (h : s.Drains log)
    (hnext : next setup s a = some s') : s'.Drains (s.events a ++ log) := by
  have heffect := next_effect hnext
  rcases h with htimedOut | ⟨hnil, hkept⟩
  · exact .inl (List.mem_append_right _ htimedOut)
  · by_cases htimedOut : .timedOut ∈ s.events a
    · exact .inl (List.mem_append_left _ htimedOut)
    · refine .inr ⟨?_, ?_⟩
      · intro hreturned
        rcases returned_of_next hnext hreturned with hbefore | hnow | hdone
        · exact heffect.handlers_nil hbefore (hnil hbefore)
        · exact absurd hnow htimedOut
        · exact hdone
      · intro step hmem
        rcases List.mem_append.mp hmem with hnow | hbefore
        · obtain ⟨hreturned, hleft⟩ := heffect.dropped_of_mem hnow
          exact hleft (hnil hreturned)
        · exact hkept step hbefore

theorem drains_reached (ok : DaemonSystem → Action → Bool)
    (h : Reachable (recording (next setup) events) (fun x a => ok x.1 a) (start config, [])
      (s, log)) :
    s.Drains log := by
  refine @Reachable.invariant _ _ _ _ _ _ (fun x => x.1.Drains x.2)
    (.inr ⟨fun _ => rfl, fun _ => List.not_mem_nil⟩) ?_ h
  intro x a x' hdrains _ hnext
  obtain ⟨hstep, hseen⟩ := recording_eq_some hnext
  rw [hseen]
  exact hdrains.step hstep

theorem countP_dropped (hkept : ∀ step, .dropped step ∉ log) (p : HandlerStep → Bool) :
    log.countP (DaemonEvent.droppedWhile p) = 0 := by
  refine List.countP_eq_zero.mpr (fun e he hdropped => ?_)
  cases e with
  | dropped step => exact hkept step he
  | _ => cases hdropped

/-- When the main loop has returned and did not cut its wait for the tasks short, no task was
dropped and none is left: each request that was read was decided, counted and answered, up to
answers that the client no longer took, and each that could not be read was counted. -/
theorem shutdown_drains (setup : ConnectionSetup) (config : Config) (s : DaemonSystem)
    (log : List DaemonEvent)
    (h : Reachable (recording (next setup) events) (fun _ _ => true) (start config, []) (s, log))
    (hreturned : s.slots.main = .returned) (hwaited : .timedOut ∉ log) :
    s.slots.tasks = [] ∧ s.handlers = [] ∧ (∀ step, .dropped step ∉ log) ∧
      log.countP DaemonEvent.isRead = log.countP DaemonEvent.isDecided ∧
      log.countP DaemonEvent.isDecided = log.countP DaemonEvent.isAnswered ∧
      ∀ counter ∈ handlerCounters, log.countP (DaemonEvent.isFor counter) =
        log.countP (DaemonEvent.isCounted counter) := by
  obtain ⟨hnil, hkept⟩ := (drains_reached (fun _ _ => true) h).resolve_left hwaited
  have hhandlers := hnil hreturned
  have hidle : ∀ p, s.standing p = 0 := by
    intro p
    unfold standing
    rw [hhandlers]
    rfl
  have hparallel : s.Parallel := @Reachable.invariant _ _ _ _ _ _ (fun x => x.1.Parallel)
    (show (start config).Parallel from rfl)
    (fun _ _ _ hi _ hnext => hi.step (recording_eq_some hnext).1) h
  have hdecided := decisions_balanced (fun _ _ => true) h
  have hanswered := answers_balanced (fun _ _ => true) h
  rw [hidle, countP_dropped hkept] at hdecided hanswered
  refine ⟨?_, hhandlers, hkept, hdecided, hanswered, fun counter hcounter => ?_⟩
  · refine List.length_eq_zero_iff.mp ?_
    rw [← hparallel.length, hhandlers]
    rfl
  · have hcounted := counts_balanced (fun _ _ => true) h hcounter
    rw [hidle, countP_dropped hkept] at hcounted
    exact hcounted

/-- When a handler that waits is all that is left, nothing is observed of a shutdown. -/
theorem replay_stop {h : PolicyHandler} (hstep : h.step = .select) (hmain : s.slots.main = .select)
    (hhandlers : s.handlers = [some h]) (htasks : s.slots.tasks = [⟨.policy, true⟩])
    (hcancelled : s.cancelled = false) (hreload : s.reload.main = .select)
    (log : List DaemonEvent) :
    ∃ t, t.slots.main = .returned ∧
      replay (recording (next setup) events) (fun _ _ => true) (s, log)
        [.shutdown, .cancel, .cancelled 0, .finish 0, .drained false] = some (t, log) := by
  obtain ⟨⟨main, tasks, connections, stats, report⟩, reload, handlers, cancelled, databases⟩ := s
  obtain ⟨state, reloadMain, workers, requests, inProgress, history⟩ := reload
  obtain ⟨step, reader, writer, stream, served⟩ := h
  dsimp only at *
  subst hstep hmain hhandlers htasks hcancelled hreload
  exact ⟨_, rfl, rfl⟩

/-- A client is served, and its connection is waited for. -/
theorem shutdown_drains_served :
    let stream := Request.encodeRequest oneRecipient ++ []
    ∃ s log, replay (recording (next ⟨true, true⟩) events) (fun _ _ => true) (start oneAMinute, [])
        (acceptActions stream ++ serveActions 0 ⟨0, by decide⟩ .none ++
          [.shutdown, .cancel, .cancelled 0, .finish 0, .drained false]) = some (s, log) ∧
      s.slots.tasks = [] ∧
      log.countP DaemonEvent.isRead = 1 ∧ log.countP DaemonEvent.isDecided = 1 ∧
      log.countP DaemonEvent.isAnswered = 1 ∧
      log.countP (DaemonEvent.isCounted .accepted) = 1 := by
  intro stream
  let handled := (oneDispatch.handle (fun _ => Keyspace.empty)).1
  have hfirst := @replay_first ⟨true, true⟩ stream [] rfl
  obtain ⟨t, hreturned, hstop⟩ := @replay_stop ⟨true, true⟩
    ((accepted oneAMinute stream).served 0 (.start stream) [] oneDispatch)
    (answered (.start stream) [] oneDispatch handled) rfl rfl rfl rfl rfl rfl _
  have hrun := replay_trans hfirst hstop
  obtain ⟨s, log, hreplay, hmain, hlog⟩ : ∃ s log, replay (recording (next ⟨true, true⟩) events)
      (fun _ _ => true) (start oneAMinute, [])
        (acceptActions stream ++ serveActions 0 ⟨0, by decide⟩ .none ++
          [.shutdown, .cancel, .cancelled 0, .finish 0, .drained false]) = some (s, log) ∧
      s.slots.main = .returned ∧ log = [.wrote, .counted handled.counter handled.logging
        (handled.logging.line ((accepted oneAMinute stream).slots.stats handled.counter)),
        .decided oneDispatch handled, .read, .counted .connectionsAccepted .silent none] :=
    ⟨_, _, hrun, hreturned, rfl⟩
  have hread : log.countP DaemonEvent.isRead = 1 := by rw [hlog]; rfl
  have hcounter : handled.counter = .accepted := by decide +kernel
  have hfor : log.countP (DaemonEvent.isFor .accepted) = 1 := by
    simp [hlog, DaemonEvent.isFor, hcounter]
  obtain ⟨htasks, _, _, hdecided, hanswered, hcounted⟩ := shutdown_drains ⟨true, true⟩ oneAMinute s
    log (Reachable.start.of_replay _ hreplay) hmain (by simp [hlog])
  exact ⟨s, log, hreplay, htasks, hread, hdecided.symm.trans hread,
    (hdecided.trans hanswered).symm.trans hread,
    (hcounted .accepted (by decide)).symm.trans hfor⟩

end DaemonSystem
end PostfixRatelimitd
