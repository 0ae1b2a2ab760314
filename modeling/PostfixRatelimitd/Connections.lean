import PostfixRatelimitd.Daemon
import PostfixRatelimitd.Transition

/-!
# Connection slots

Both listeners share one budget of connections. The main loop takes a slot for each
connection it accepts, gives it back when the budget is used up, and hands it to a task
otherwise; the task's guard gives it back when the task ends in whatever way. Meanwhile
handlers bump their own counters and the report resets all of them, one after another.
Every atomic operation is a step of its own. The SIGHUP arm of the main loop takes no part.
-/
namespace PostfixRatelimitd

def maxConnections : UInt64 := 512

/-- Which listener a connection was accepted from. -/
inductive Accepted
  | policy
  | control
  deriving DecidableEq, Repr

/-- Where the main loop stands with a connection. -/
inductive AdmissionStep
  /-- waiting for the next event -/
  | select
  | fetchAdd (accepted : Accepted)
  | fetchSub (accepted : Accepted)
  /-- the slot is given back and the refusal not yet counted -/
  | refuse (accepted : Accepted)
  /-- the slot is kept and the connection not yet counted -/
  | keep (accepted : Accepted)
  | spawn (accepted : Accepted)
  /-- past the loop, waiting for the tasks -/
  | draining
  | returned
  deriving DecidableEq, Repr

namespace AdmissionStep

/-- Between taking a slot and giving it back or away. -/
def holdsSlot : AdmissionStep → Bool
  | fetchSub _ | keep _ | spawn _ => true
  | select | fetchAdd _ | refuse _ | draining | returned => false

/-- Between finding the budget not used up and the spawn. -/
def admitted : AdmissionStep → Bool
  | keep _ | spawn _ => true
  | select | fetchAdd _ | fetchSub _ | refuse _ | draining | returned => false

/-- At work on a connection of the policy socket. -/
def handlesPolicy : AdmissionStep → Bool
  | fetchAdd a | fetchSub a | refuse a | keep a | spawn a => a == .policy
  | select | draining | returned => false

end AdmissionStep

/-- A task that was spawned and has not released its slot. The guard is made when the task
is polled for the first time. -/
structure ConnectionTask where
  accepted : Accepted
  guarded : Bool
  deriving DecidableEq, Repr

/-- The next operation of the report: a counter's swap for the line to be logged, the load of
the gauge for it, or the reset of a counter that is not on it. -/
inductive ReportStep
  | swap (counter : StatsCounter)
  | load
  | store (counter : StatsCounter)
  deriving DecidableEq, Repr

/-- One report. The arguments of the log line are evaluated only if it is logged. -/
def reportStats (logsInfo : Bool) : List ReportStep :=
  (if logsInfo then
    [.swap .accepted, .swap .rejected, .swap .failedDeferred, .swap .failedPermitted,
      .swap .unauthenticated, .swap .malformed, .swap .connectionsAccepted,
      .swap .connectionsRejected, .swap .acceptErrors, .load]
  else []) ++ [.store .misconfigured]

/-- The counters that the handler of a policy connection bumps. -/
def handlerCounters : List StatsCounter :=
  [.accepted, .rejected, .failedDeferred, .failedPermitted, .unauthenticated, .malformed,
    .misconfigured]

/-- The daemon as far as slots and counters go. The counters may count in the naturals or,
as the code's do, in machine integers that come round. -/
structure ConnectionSystem (ν : Type*) where
  main : AdmissionStep
  tasks : List ConnectionTask
  activeConnections : UInt64
  stats : StatsCounter → ν
  /-- what is left of the report under way -/
  report : List ReportStep

/-- What is fixed at startup: whether there is a control socket, and whether lines of the
report's level are logged. -/
structure ConnectionSetup where
  controlListener : Bool
  logsInfo : Bool

/-- How the handler of a connection ends. -/
inductive HandlerEnd
  | returned
  | panicked
  deriving DecidableEq, Repr

/-- What can be observed of a step. -/
inductive SlotEvent (ν : Type*)
  | accepted (accepted : Accepted)
  /-- a `fetch_sub` on the active connections, with what it found -/
  | fetchSub (previous : UInt64)
  /-- the main loop is done with a connection it refused -/
  | refused (accepted : Accepted)
  /-- the main loop is done with a connection it spawned a task for -/
  | spawned (accepted : Accepted)
  | released
  | reported (counter : StatsCounter) (amount : ν)
  | gauge (activeConnections : UInt64)

namespace ConnectionSystem
variable {ν : Type*} [AddCommMonoidWithOne ν]

/-- After startup. -/
def start : ConnectionSystem ν := ⟨.select, [], 0, fun _ => 0, []⟩

/-- The environment decides when a connection arrives or `accept` fails, when a task is polled,
what a handler counts and when it ends, and when the report is due. -/
inductive Action
  | accept (accepted : Accepted)
  | acceptError (accepted : Accepted)
  | shutdown
  | main
  | poll (i : ℕ)
  | count (i : ℕ) (counter : StatsCounter)
  | finish (i : ℕ) (handlerEnd : HandlerEnd)
  /-- the runtime drops a task after the main loop has returned -/
  | dropTask (i : ℕ)
  | tick
  | report

def bump (stats : StatsCounter → ν) (counter : StatsCounter) : StatsCounter → ν :=
  Function.update stats counter (stats counter + 1)

/-- Only connections of the policy socket are counted. -/
def bumpPolicy (stats : StatsCounter → ν) (accepted : Accepted) (counter : StatsCounter) :
    StatsCounter → ν :=
  match accepted with
  | .policy => bump stats counter
  | .control => stats

def acceptNext (setup : ConnectionSetup) (s : ConnectionSystem ν) (accepted : Accepted) :
    Option (ConnectionSystem ν) :=
  if s.main = .select ∧ (accepted = .control → setup.controlListener) then
    some { s with main := .fetchAdd accepted }
  else none

/-- The pause after a failed `accept` is part of the wait for the next event. -/
def acceptErrorNext (setup : ConnectionSetup) (s : ConnectionSystem ν) (accepted : Accepted) :
    Option (ConnectionSystem ν) :=
  if s.main = .select ∧ (accepted = .control → setup.controlListener) then
    some { s with stats := bumpPolicy s.stats accepted .acceptErrors }
  else none

def shutdownNext (s : ConnectionSystem ν) : Option (ConnectionSystem ν) :=
  if s.main = .select then some { s with main := .draining } else none

/-- The main loop past the receipt of a connection. -/
def mainNext (s : ConnectionSystem ν) : Option (ConnectionSystem ν) :=
  match s.main with
  | .select => none
  | .fetchAdd accepted =>
    some { s with
      activeConnections := s.activeConnections + 1
      main := if maxConnections ≤ s.activeConnections then .fetchSub accepted
        else .keep accepted }
  | .fetchSub accepted =>
    some { s with activeConnections := s.activeConnections - 1, main := .refuse accepted }
  | .refuse accepted =>
    some { s with stats := bumpPolicy s.stats accepted .connectionsRejected, main := .select }
  | .keep accepted =>
    some { s with
      stats := bumpPolicy s.stats accepted .connectionsAccepted
      main := .spawn accepted }
  | .spawn accepted => some { s with tasks := s.tasks ++ [⟨accepted, false⟩], main := .select }
  | .draining => some { s with main := .returned }
  | .returned => none

def pollNext (s : ConnectionSystem ν) (i : ℕ) : Option (ConnectionSystem ν) :=
  s.tasks[i]?.map (fun task => { s with tasks := s.tasks.set i { task with guarded := true } })

def countNext (s : ConnectionSystem ν) (i : ℕ) (counter : StatsCounter) :
    Option (ConnectionSystem ν) :=
  if s.tasks[i]? = some ⟨.policy, true⟩ ∧ counter ∈ handlerCounters then
    some { s with stats := bump s.stats counter }
  else none

/-- The guard is dropped. -/
def release (s : ConnectionSystem ν) (i : ℕ) : ConnectionSystem ν :=
  { s with tasks := s.tasks.eraseIdx i, activeConnections := s.activeConnections - 1 }

def finishNext (s : ConnectionSystem ν) (i : ℕ) : Option (ConnectionSystem ν) :=
  if s.tasks[i]?.any ConnectionTask.guarded then some (s.release i) else none

/-- A task that was never polled has no guard to drop. -/
def dropTaskNext (s : ConnectionSystem ν) (i : ℕ) : Option (ConnectionSystem ν) :=
  if s.main = .returned then
    s.tasks[i]?.map (fun task =>
      if task.guarded then s.release i else { s with tasks := s.tasks.eraseIdx i })
  else none

def tickNext (setup : ConnectionSetup) (s : ConnectionSystem ν) : Option (ConnectionSystem ν) :=
  if s.report = [] then some { s with report := reportStats setup.logsInfo } else none

def reportNext (s : ConnectionSystem ν) : Option (ConnectionSystem ν) :=
  match s.report with
  | [] => none
  | .load :: rest => some { s with report := rest }
  | .swap counter :: rest | .store counter :: rest =>
    some { s with stats := Function.update s.stats counter 0, report := rest }

def next (setup : ConnectionSetup) (s : ConnectionSystem ν) : Action → Option (ConnectionSystem ν)
  | .accept accepted => acceptNext setup s accepted
  | .acceptError accepted => acceptErrorNext setup s accepted
  | .shutdown => shutdownNext s
  | .main => mainNext s
  | .poll i => pollNext s i
  | .count i counter => countNext s i counter
  | .finish i _ => finishNext s i
  | .dropTask i => dropTaskNext s i
  | .tick => tickNext setup s
  | .report => reportNext s

/-- No task is dropped before it was polled. -/
def pollsTasks (s : ConnectionSystem ν) : Action → Bool
  | .dropTask i => s.tasks[i]?.all ConnectionTask.guarded
  | _ => true

def mainEvents (s : ConnectionSystem ν) : List (SlotEvent ν) :=
  match s.main with
  | .fetchSub _ => [.fetchSub s.activeConnections]
  | .refuse accepted => [.refused accepted]
  | .spawn accepted => [.spawned accepted]
  | _ => []

def reportEvents (s : ConnectionSystem ν) : List (SlotEvent ν) :=
  match s.report with
  | .swap counter :: _ => [.reported counter (s.stats counter)]
  | .load :: _ => [.gauge s.activeConnections]
  | _ => []

/-- What a step lets be observed, newest first. -/
def events (s : ConnectionSystem ν) : Action → List (SlotEvent ν)
  | .accept accepted => [.accepted accepted]
  | .main => s.mainEvents
  | .finish _ _ => [.released, .fetchSub s.activeConnections]
  | .dropTask i =>
    if s.tasks[i]?.any ConnectionTask.guarded then [.released, .fetchSub s.activeConnections]
    else []
  | .report => s.reportEvents
  | _ => []

end ConnectionSystem

namespace SlotEvent
variable {ν : Type*}

@[simp] def isAccepted (accepted : Accepted) : SlotEvent ν → Bool
  | .accepted a => a == accepted
  | _ => false

@[simp] def isRefused (accepted : Accepted) : SlotEvent ν → Bool
  | .refused a => a == accepted
  | _ => false

@[simp] def isSpawned (accepted : Accepted) : SlotEvent ν → Bool
  | .spawned a => a == accepted
  | _ => false

/-- The main loop is done with a connection of this socket. -/
@[simp] def isHandled (accepted : Accepted) (event : SlotEvent ν) : Bool :=
  event.isRefused accepted || event.isSpawned accepted

@[simp] def isReleased : SlotEvent ν → Bool
  | .released => true
  | _ => false

/-- The main loop is done with a connection by refusing it or by a spawn, not both. -/
theorem countP_isHandled (accepted : Accepted) (log : List (SlotEvent ν)) :
    log.countP (isHandled accepted) =
      log.countP (isRefused accepted) + log.countP (isSpawned accepted) := by
  induction log with
  | nil => rfl
  | cons event log ih =>
    rw [List.countP_cons, List.countP_cons, List.countP_cons, ih]
    cases event <;> simp <;> omega

/-- What a report took from a counter. -/
@[simp] def amount [Zero ν] (counter : StatsCounter) : SlotEvent ν → ν
  | .reported c n => if c = counter then n else 0
  | _ => 0

end SlotEvent

end PostfixRatelimitd
