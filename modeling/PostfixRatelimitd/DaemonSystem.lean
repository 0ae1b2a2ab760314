import PostfixRatelimitd.Connections
import PostfixRatelimitd.Daemon
import PostfixRatelimitd.ReloadCoherence
import PostfixRatelimitd.TaskPool
import Mathlib.Data.UInt

/-!
# The whole daemon

One main loop accepts connections, handles SIGHUP and shuts down; a task serves each policy
connection, a worker reloads, a timer reports, and other instances use the same databases.
Admission and reloading are the systems of their own modules. Added here are the handlers of
policy connections, byte for byte, and what the shutdown does to them. Loading the state,
deciding a request, counting it and writing the answer are steps of their own.
-/
namespace PostfixRatelimitd

/-- The counters come round. -/
instance instAddCommMonoidWithOneUInt64 : AddCommMonoidWithOne UInt64 where
  zero := 0
  one := 1
  add_assoc := UInt64.add_assoc
  add_comm := UInt64.add_comm
  zero_add := UInt64.zero_add
  add_zero := UInt64.add_zero
  nsmul := nsmulRec
  natCast := UInt64.ofNat
  natCast_zero := rfl
  natCast_succ n := UInt64.ofNat_add n 1

/-! ## Log lines of what is counted -/

def logSuppressionLimit : UInt64 := 5

inductive LogLine
  | full (kind : String)
  /-- the notice that further lines of this kind are suppressed -/
  | suppressing (kind : String)
  deriving DecidableEq, Repr

/-- What is logged of an occurrence, by the number of those before it that the counter holds. -/
def logThrottled (previous : UInt64) (kind : String) : Option LogLine :=
  if previous < logSuppressionLimit then some (.full kind)
  else if previous = logSuppressionLimit then some (.suppressing kind)
  else none

/-- How the occurrences that a counter counts are logged. -/
inductive Logging
  | silent
  /-- in full each time -/
  | always (kind : String)
  /-- through `logThrottled` -/
  | throttled (kind : String)
  deriving DecidableEq, Repr

/-- What is logged of an occurrence after so many others. -/
def Logging.line (previous : UInt64) : Logging → Option LogLine
  | silent => none
  | always kind => some (.full kind)
  | throttled kind => logThrottled previous kind

def Handled.logging (handled : Handled) : Logging := handled.throttled.elim .silent .throttled

/-! ## Databases -/

/-- Where a connection leads; two addresses are taken for two databases. -/
structure Database where
  addr : ConnectionAddr
  index : ℤ
  deriving DecidableEq, Repr

def ConnectionInfo.database (info : ConnectionInfo) : Database := ⟨info.addr, info.db⟩

/-- A request that is decided on a database. -/
structure Dispatch where
  database : Database
  delivery : Delivery

def Dispatch.handle (d : Dispatch) (db : Database → Db) : Handled × (Database → Db) :=
  ((d.delivery.handle (db d.database)).1,
    Function.update db d.database (d.delivery.handle (db d.database)).2)

/-- All databases, and every request that any instance decided, with its answer, newest first. -/
structure Databases where
  db : Database → Db
  handled : List (Dispatch × Handled)

namespace Databases

def empty : Databases := ⟨fun _ => Keyspace.empty, []⟩

def step (s : Databases) (d : Dispatch) : Databases :=
  ⟨(d.handle s.db).2, (d, (d.handle s.db).1) :: s.handled⟩

/-- One database, with what was decided on it. -/
def service (s : Databases) (database : Database) : Service where
  db := s.db database
  handled := (s.handled.filter (fun x => x.1.database = database)).map
    (fun x => (x.1.delivery, x.2))

theorem service_step (s : Databases) (d : Dispatch) (database : Database) :
    (s.step d).service database =
      if d.database = database then (s.service database).step d.delivery
      else s.service database := by
  by_cases h : d.database = database
  · subst h
    simp [service, step, Dispatch.handle, Service.step]
  · simp [service, step, Dispatch.handle, h, Ne.symm h]

end Databases

/-! ## The handler of a policy connection -/

/-- Where the task of a policy connection stands. -/
inductive HandlerStep
  /-- waiting for the next request or for the shutdown -/
  | select
  | loadFull (request : Request)
  | handleRequest (request : Request) (current : RuntimeState)
  /-- the request is decided and not yet counted -/
  | count (handled : Handled)
  | writeAction (action : String)
  /-- no request could be read, and that is not yet counted -/
  | malformed
  | returned

def HandlerStep.isReturned : HandlerStep → Bool
  | returned => true
  | _ => false

/-- A policy connection and its task. -/
structure PolicyHandler where
  step : HandlerStep
  /-- what is not yet read -/
  reader : List UInt8
  writer : List UInt8
  /-- all that the client sends before it closes its side -/
  stream : List UInt8
  /-- the requests decided so far, with what was decided, oldest first -/
  served : List (Dispatch × Handled)

namespace PolicyHandler

def start (stream : List UInt8) : PolicyHandler := ⟨.select, stream, [], stream, []⟩

/-- The wait ends with what there is to read. -/
def readNext (h : PolicyHandler) : Option PolicyHandler :=
  match h.step with
  | .select =>
    match Request.readFrom h.reader with
    | (.ok (some request), rest) => some { h with step := .loadFull request, reader := rest }
    | (.ok none, rest) => some { h with step := .returned, reader := rest }
    | (.error _, rest) => some { h with step := .malformed, reader := rest }
  | _ => none

/-- The connection breaks during the wait. -/
def resetNext (h : PolicyHandler) : Option PolicyHandler :=
  match h.step with
  | .select => some { h with step := .malformed }
  | _ => none

/-- The wait ends with the shutdown. -/
def cancelNext (h : PolicyHandler) : Option PolicyHandler :=
  match h.step with
  | .select => some { h with step := .returned }
  | _ => none

def loadNext (state : RuntimeState) (h : PolicyHandler) : Option PolicyHandler :=
  match h.step with
  | .loadFull request => some { h with step := .handleRequest request state }
  | _ => none

/-- The request that is about to be decided, with what the environment adds to it. -/
def dispatch (h : PolicyHandler) (clock : Clock) (fault : Fault) : Option Dispatch :=
  match h.step with
  | .handleRequest request current =>
    some ⟨current.connectionInfo.database, request, current.config, current.limiter, clock, fault⟩
  | _ => none

def decided (h : PolicyHandler) (d : Dispatch) (handled : Handled) : PolicyHandler :=
  { h with step := .count handled, served := h.served ++ [(d, handled)] }

/-- The counter that is about to be bumped, with how that is logged. -/
def counts (h : PolicyHandler) : Option (StatsCounter × Logging) :=
  match h.step with
  | .count handled => some (handled.counter, handled.logging)
  | .malformed => some (.malformed, .always "error reading policy request")
  | _ => none

def countNext (h : PolicyHandler) : Option PolicyHandler :=
  match h.step with
  | .count handled => some { h with step := .writeAction handled.action }
  | .malformed => some { h with step := .returned }
  | _ => none

/-- The answer is written, or only so many bytes of it. -/
def writeNext (cut : Option ℕ) (h : PolicyHandler) : Option PolicyHandler :=
  match h.step, cut with
  | .writeAction action, none =>
    some { h with step := .select, writer := h.writer ++ PostfixRatelimitd.writeAction action }
  | .writeAction action, some n =>
    some { h with
      step := .returned
      writer := h.writer ++ (PostfixRatelimitd.writeAction action).take n }
  | _, _ => none

end PolicyHandler

/-! ## The system -/

structure DaemonSystem where
  /-- the main loop, the tasks' slots, the counters and the report -/
  slots : ConnectionSystem UInt64
  /-- the SIGHUP arm, the worker and the state in force -/
  reload : ReloadSystem
  /-- one for each task; none for a control connection -/
  handlers : List (Option PolicyHandler)
  cancelled : Bool
  databases : Databases

/-- What can be observed of a step. -/
inductive DaemonEvent
  | read
  | malformed
  | decided (dispatch : Dispatch) (handled : Handled)
  /-- a counter is bumped, with how that is logged and the line that is -/
  | counted (counter : StatsCounter) (logging : Logging) (line : Option LogLine)
  /-- a warning that goes with no counter -/
  | warned (kind : String)
  | wrote
  /-- an answer could not be written, of which there is a warning -/
  | writeFailed
  /-- a report takes this much from a counter into its line -/
  | reported (counter : StatsCounter) (amount : UInt64)
  /-- a report sets a counter back that has no place in its line -/
  | stored (counter : StatsCounter) (amount : UInt64)
  /-- the shutdown does not wait for the tasks any longer, of which there is a warning -/
  | timedOut
  /-- the runtime drops the task of a policy connection -/
  | dropped (step : HandlerStep)

namespace DaemonSystem

/-- After startup. -/
def start (config : Config) : DaemonSystem :=
  ⟨.start, .start (.startup config), [], false, .empty⟩

/-- The environment decides what arrives and when, what the clients send, what a query to the
database meets, how much of an answer gets written, and what other instances do. -/
inductive Action
  | accept (accepted : Accepted)
  | acceptError (accepted : Accepted)
  | sighup
  | shutdown
  /-- the main loop goes on with a connection, whose client sends `stream` -/
  | main (stream : List UInt8)
  | reloadMain
  | cancel
  | drained (timedOut : Bool)
  | poll (i : ℕ)
  | read (i : ℕ)
  | reset (i : ℕ)
  | cancelled (i : ℕ)
  | load (i : ℕ)
  | handle (i : ℕ) (clock : Clock) (fault : Fault)
  | count (i : ℕ)
  | write (i : ℕ) (cut : Option ℕ)
  | finish (i : ℕ)
  | dropTask (i : ℕ)
  | worker (i : ℕ) (file : Except ConfigError Config) (connects : Bool)
  | tick
  | report
  | elsewhere (dispatch : Dispatch)

/-- The one main loop waits for its next event. -/
def atSelect (s : DaemonSystem) : Bool := s.slots.main == .select && s.reload.main == .select

/-- The main loop past the receipt of a connection, up to the spawn of its task. -/
def mainNext (s : DaemonSystem) (stream : List UInt8) : Option DaemonSystem :=
  match s.slots.main with
  | .draining => none
  | .spawn accepted =>
    s.slots.mainNext.map (fun slots => { s with
      slots := slots
      handlers := s.handlers ++
        [if accepted = .policy then some (PolicyHandler.start stream) else none] })
  | _ => s.slots.mainNext.map (fun slots => { s with slots := slots })

def cancelNext (s : DaemonSystem) : Option DaemonSystem :=
  if s.slots.main = .draining ∧ s.cancelled = false then some { s with cancelled := true } else none

/-- The main loop returns once all tasks have ended, or when it has waited long enough. -/
def drainedNext (s : DaemonSystem) (timedOut : Bool) : Option DaemonSystem :=
  if s.slots.main = .draining ∧ s.cancelled = true ∧ (timedOut = true ∨ s.handlers = []) then
    s.slots.mainNext.map (fun slots => { s with slots := slots })
  else none

/-- The handler of a policy connection whose task runs. -/
def handler (s : DaemonSystem) (i : ℕ) : Option PolicyHandler :=
  if s.slots.tasks[i]? = some ⟨.policy, true⟩ then s.handlers[i]?.join else none

def setHandler (s : DaemonSystem) (i : ℕ) (h : PolicyHandler) : DaemonSystem :=
  { s with handlers := s.handlers.set i (some h) }

/-- A step of one handler that nothing else takes part in. -/
def handlerNext (s : DaemonSystem) (i : ℕ) (step : PolicyHandler → Option PolicyHandler) :
    Option DaemonSystem :=
  ((s.handler i).bind step).map (s.setHandler i)

def handleNext (s : DaemonSystem) (i : ℕ) (clock : Clock) (fault : Fault) : Option DaemonSystem :=
  (s.handler i).bind (fun h => (h.dispatch clock fault).map (fun d =>
    { s.setHandler i (h.decided d (d.handle s.databases.db).1) with
      databases := s.databases.step d }))

def countNext (s : DaemonSystem) (i : ℕ) : Option DaemonSystem :=
  (s.handler i).bind (fun h => h.counts.bind (fun counted => h.countNext.bind (fun h' =>
    (s.slots.countNext i counted.1).map (fun slots => { s.setHandler i h' with slots := slots }))))

/-- A task has ended; that of a control connection may end at any time. -/
def finishNext (s : DaemonSystem) (i : ℕ) : Option DaemonSystem :=
  if (s.handlers[i]?.join.all (fun h => h.step.isReturned)) then
    (s.slots.finishNext i).map (fun slots => { s with
      slots := slots
      handlers := s.handlers.eraseIdx i })
  else none

def dropTaskNext (s : DaemonSystem) (i : ℕ) : Option DaemonSystem :=
  (s.slots.dropTaskNext i).map (fun slots => { s with
    slots := slots
    handlers := s.handlers.eraseIdx i })

def next (setup : ConnectionSetup) (s : DaemonSystem) : Action → Option DaemonSystem
  | .accept accepted =>
    if s.atSelect then
      (s.slots.acceptNext setup accepted).map (fun slots => { s with slots := slots })
    else none
  | .acceptError accepted =>
    if s.atSelect then
      (s.slots.acceptErrorNext setup accepted).map (fun slots => { s with slots := slots })
    else none
  | .sighup =>
    if s.atSelect then s.reload.receiveNext.map (fun reload => { s with reload := reload })
    else none
  | .shutdown =>
    if s.atSelect then s.slots.shutdownNext.map (fun slots => { s with slots := slots }) else none
  | .main stream => s.mainNext stream
  | .reloadMain => s.reload.mainNext.map (fun reload => { s with reload := reload })
  | .cancel => s.cancelNext
  | .drained timedOut => s.drainedNext timedOut
  | .poll i => (s.slots.pollNext i).map (fun slots => { s with slots := slots })
  | .read i => s.handlerNext i PolicyHandler.readNext
  | .reset i => s.handlerNext i PolicyHandler.resetNext
  | .cancelled i => if s.cancelled then s.handlerNext i PolicyHandler.cancelNext else none
  | .load i => s.handlerNext i (PolicyHandler.loadNext s.reload.state)
  | .handle i clock fault => s.handleNext i clock fault
  | .count i => s.countNext i
  | .write i cut => s.handlerNext i (PolicyHandler.writeNext cut)
  | .finish i => s.finishNext i
  | .dropTask i => s.dropTaskNext i
  | .worker i file connects =>
    (s.reload.workerNext i file connects).map (fun reload => { s with reload := reload })
  | .tick => (s.slots.tickNext setup).map (fun slots => { s with slots := slots })
  | .report => s.slots.reportNext.map (fun slots => { s with slots := slots })
  | .elsewhere dispatch => some { s with databases := s.databases.step dispatch }

/-! ## What is observed -/

/-- A counter is bumped, and what is logged of it. -/
def bumped (s : DaemonSystem) (counter : StatsCounter) (logging : Logging) : List DaemonEvent :=
  [.counted counter logging (logging.line (s.slots.stats counter))]

def mainEvents (s : DaemonSystem) : List DaemonEvent :=
  match s.slots.main with
  | .refuse .policy =>
    s.bumped .connectionsRejected (.throttled "concurrent connection limit rejection")
  | .refuse .control => [.warned "rejecting control connection"]
  | .keep .policy => s.bumped .connectionsAccepted .silent
  | _ => []

def readEvents (h : PolicyHandler) : List DaemonEvent :=
  match h.readNext.map PolicyHandler.step with
  | some (.loadFull _) => [.read]
  | some .malformed => [.malformed]
  | _ => []

def reportEvents (s : DaemonSystem) : List DaemonEvent :=
  match s.slots.report with
  | .swap counter :: _ => [.reported counter (s.slots.stats counter)]
  | .store counter :: _ => [.stored counter (s.slots.stats counter)]
  | _ => []

/-- What a step lets be observed. -/
def events (s : DaemonSystem) : Action → List DaemonEvent
  | .acceptError .policy => s.bumped .acceptErrors (.always "failed to accept connection")
  | .acceptError .control => [.warned "failed to accept control connection"]
  | .main _ => s.mainEvents
  | .drained true => [.timedOut]
  | .read i => (s.handler i).elim [] readEvents
  | .reset _ => [.malformed]
  | .handle i clock fault =>
    ((s.handler i).bind (PolicyHandler.dispatch · clock fault)).elim []
      (fun d => [.decided d (d.handle s.databases.db).1])
  | .count i =>
    ((s.handler i).bind PolicyHandler.counts).elim [] (fun counted => s.bumped counted.1 counted.2)
  | .write _ cut => [if cut.isNone then .wrote else .writeFailed]
  | .dropTask i => s.handlers[i]?.join.elim [] (fun h => [.dropped h.step])
  | .report => s.reportEvents
  | _ => []

end DaemonSystem
end PostfixRatelimitd
