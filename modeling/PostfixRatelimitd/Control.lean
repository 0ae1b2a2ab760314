import PostfixRatelimitd.PlanChanges
import PostfixRatelimitd.Reload
import PostfixRatelimitd.Status

/-!
# Requests on the control socket

A request line is decoded in two stages, JSON first and then a request, and dispatched
by its method. Every failure becomes a response. The JSON libraries are a parameter.
Only an index out of range could end a request without a response, and under a loaded
config none is.
-/
namespace PostfixRatelimitd

/-! ## The JSON-RPC envelope -/

/-- A JSON number as it is stored; a float by its bits. -/
inductive Number
  | posInt (n : UInt64)
  | negInt (n : Int64)
  | float (bits : UInt64)

inductive JsonValue
  | null
  | bool (b : Bool)
  | number (n : Number)
  | string (s : String)
  | array (values : List JsonValue)
  | object (fields : List (String × JsonValue))

inductive Version
  | v2

inductive Id
  | num (n : UInt64)
  | str (s : String)

inductive ErrorCode
  | parseError
  | invalidRequest
  | methodNotFound
  | invalidParams
  | internalError
  | serverError (code : Int64)

/-- An error with a text message; the daemon attaches no data to it. -/
structure RpcError where
  code : ErrorCode
  message : String

/-- A method name, in a buffer of 32 bytes. -/
structure MethodName where
  text : String
  fits : text.utf8ByteSize ≤ 32

structure RpcRequest where
  jsonrpc : Version
  method : MethodName
  params : Option JsonValue
  id : Option Id

/-- A response has a result or an error. -/
structure RpcResponse where
  jsonrpc : Version
  payload : Except RpcError JsonValue
  id : Option Id

/-- The parameters of a status request. -/
structure LimitsSaslParams where
  username : String

/-- What the daemon uses of the JSON libraries, and the quoting of a string in a message.
A decoder that fails says why. -/
structure Codec where
  fromStr : String → Except String JsonValue
  request : JsonValue → Except String RpcRequest
  limitsSaslParams : JsonValue → Except String LimitsSaslParams
  toString : RpcResponse → String
  quoted : String → String

def success (id : Option Id) (result : JsonValue) : RpcResponse := ⟨.v2, .ok result, id⟩

def failure (id : Option Id) (code : ErrorCode) (message : String) : RpcResponse :=
  ⟨.v2, .error ⟨code, message⟩, id⟩

/-! ## Dispatch -/

def pingMethod : String := "ping"
def limitsSaslMethod : String := "limits.sasl"

def WindowStatus.toValue (status : WindowStatus) : JsonValue :=
  .object [("current_total", .number (.posInt status.currentTotal.toUInt64)),
    ("limit", .number (.posInt status.limit.toUInt64)),
    ("span_secs", .number (.posInt (UInt64.ofNat status.spanSecs)))]

def StatusResponse.toValue : StatusResponse → JsonValue
  | .unrestricted always => .object [("unrestricted", .bool always)]
  | .limited computedAt windows =>
    .object [("computed_at", .number (.posInt (UInt64.ofNat computedAt))),
      ("windows", .array (windows.map WindowStatus.toValue))]

/-- What one command of a query meets: the server's clock and database, or no reply. -/
abbrev Exchange := Option (Clock × Db)

/-- What a request line meets when it is handled. -/
structure Moment where
  state : RuntimeState
  /-- the exchange of each command of the query, in order -/
  exchange : ℕ → Exchange

namespace QueryState
variable (keyPrefix saslUsername : String) (plan : CheckPlan)

/-- The next command of the query on its way to the server. -/
def send (exchange : Exchange) : QueryState → QueryState
  | failed e => failed e
  | q =>
    match exchange with
    | some (clock, db) => q.step keyPrefix saslUsername plan clock db
    | none => failed .connection

/-- How far a query has come after its first `n` commands. -/
def sent (exchange : ℕ → Exchange) : ℕ → QueryState
  | 0 => start
  | n + 1 => (sent exchange n).send keyPrefix saslUsername plan (exchange n)

end QueryState

/-- The status of `saslUsername` against `plan`, whatever happens between two commands. -/
def queryStatus (keyPrefix saslUsername : String) (plan : CheckPlan) (exchange : ℕ → Exchange) :
    Option (Except StatusError StatusResponse) :=
  if plan.bucketSizes.isEmpty then some (.ok (.unrestricted true))
  else (QueryState.sent keyPrefix saslUsername plan exchange (plan.bucketSizes.length + 1)).response
    plan

/-- Commands that all meet the same clock and database are a query at one instant. -/
theorem QueryState.sent_const (p u : String) (plan : CheckPlan) (clock : Clock) (db : Db) (n : ℕ) :
    sent p u plan (fun _ => some (clock, db)) n = Nat.iterate (step p u plan clock db) n start := by
  induction n with
  | zero => rfl
  | succ n ih =>
    rw [Function.iterate_succ_apply', ← ih]
    show (sent p u plan _ n).send p u plan (some (clock, db)) = _
    cases sent p u plan (fun _ => some (clock, db)) n with
    | start => rfl
    | reading now bucketsByKey => rfl
    | failed e => rfl

theorem queryStatus_const (p u : String) (plan : CheckPlan) (clock : Clock) (db : Db) :
    queryStatus p u plan (fun _ => some (clock, db)) = computeSaslStatus p u plan clock db := by
  unfold queryStatus computeSaslStatus
  rw [QueryState.sent_const]

/-- Dispatches one request to a response; none when the task panics. -/
def dispatch (codec : Codec) (request : RpcRequest) (moment : Moment) : Option RpcResponse :=
  if request.method.text = pingMethod then some (success request.id (.string "pong"))
  else if request.method.text = limitsSaslMethod then
    match codec.limitsSaslParams (request.params.getD .null) with
    | .error err => some (failure request.id .invalidParams ("invalid params: " ++ err))
    | .ok params =>
      let current := moment.state
      let plan := current.config.planFor params.username
      match queryStatus current.limiter.keyPrefix params.username plan moment.exchange with
      | some (.ok status) => some (success request.id status.toValue)
      | some (.error .panicked) => none
      | some (.error _) => some (failure request.id .internalError "error checking status")
      | none => none
  else
    some (failure request.id .methodNotFound
      ("unknown method " ++ codec.quoted request.method.text))

/-- Parses and dispatches one request line into a response. -/
def handleLine (codec : Codec) (line : List Char) (moment : Moment) : Option RpcResponse :=
  match codec.fromStr (String.ofList line) with
  | .error err => some (failure none .parseError ("invalid JSON: " ++ err))
  | .ok value =>
    match codec.request value with
    | .error err => some (failure none .invalidRequest ("invalid request: " ++ err))
    | .ok request => dispatch codec request moment

/-! ## Every request is answered -/

/-- All plans of the config were built for its rules. -/
structure Config.Built (config : Config) : Prop where
  rules : ∀ rule ∈ config.saslLimits, rule.plan.Built
  default : config.defaultPlan.Built

theorem Config.Built.planFor {config : Config} (h : config.Built) (saslUsername : String) :
    (config.planFor saslUsername).Built := by
  unfold Config.planFor
  cases hrule : config.saslLimits.find? (fun rule => rule.matches saslUsername) with
  | none => exact h.default
  | some rule => exact h.rules rule (List.mem_of_find?_eq_some hrule)

section Answered
variable {p u : String} {plan : CheckPlan}

/-- After `n` commands a query has read the time and the first `n - 1` keys, or it has
failed on what a server can send. -/
def QueryState.After (n : ℕ) : QueryState → Prop
  | start => n = 0
  | reading _ bucketsByKey => n = bucketsByKey.length + 1
  | failed e => e ≠ .panicked

theorem QueryState.After.send {n : ℕ} {q : QueryState} (h : q.After n)
    (hn : n < plan.bucketSizes.length + 1) (exchange : Exchange) :
    (q.send p u plan exchange).After (n + 1) := by
  cases q with
  | failed e => exact h
  | start =>
    cases exchange with
    | none => exact StatusError.noConfusion
    | some reply => exact congrArg (· + 1) h
  | reading now bucketsByKey =>
    have hlength : n = bucketsByKey.length + 1 := h
    have hsize := List.getElem?_eq_getElem (l := plan.bucketSizes) (i := bucketsByKey.length)
      (by omega)
    cases exchange with
    | none => exact StatusError.noConfusion
    | some reply =>
      unfold QueryState.send
      dsimp only
      unfold QueryState.step
      simp only [hsize]
      split
      · show n + 1 = (bucketsByKey ++ [_]).length + 1
        rw [List.length_append, List.length_singleton, hlength]
      · exact StatusError.noConfusion

theorem QueryState.sent_after (p u : String) (exchange : ℕ → Exchange) {n : ℕ}
    (hn : n ≤ plan.bucketSizes.length + 1) : (sent p u plan exchange n).After n := by
  induction n with
  | zero => rfl
  | succ n ih => exact (ih (by omega)).send (by omega) _

/-- A query under a built plan ends, and never by a panic. -/
theorem queryStatus_ends (hplan : plan.Built) (exchange : ℕ → Exchange) :
    ∃ result, queryStatus p u plan exchange = some result ∧ result ≠ .error .panicked := by
  unfold queryStatus
  split
  · exact ⟨_, rfl, by simp⟩
  · have hafter := QueryState.sent_after p u exchange (le_refl (plan.bucketSizes.length + 1))
    cases hq : QueryState.sent p u plan exchange (plan.bucketSizes.length + 1) with
    | start =>
      rw [hq] at hafter
      exact absurd hafter (Nat.succ_ne_zero _)
    | reading now bucketsByKey =>
      rw [hq] at hafter
      have hread : bucketsByKey.length = plan.bucketSizes.length := (Nat.succ.inj hafter).symm
      exact ⟨_, response_reading hplan.wellFormed hread, by simp⟩
    | failed e =>
      rw [hq] at hafter
      refine ⟨.error e, rfl, ?_⟩
      intro hpanic
      exact hafter (Except.error.inj hpanic)

end Answered

theorem dispatch_answers (codec : Codec) (request : RpcRequest) {moment : Moment}
    (h : moment.state.config.Built) :
    ∃ response, dispatch codec request moment = some response := by
  unfold dispatch
  split_ifs
  · exact ⟨_, rfl⟩
  · cases codec.limitsSaslParams (request.params.getD .null) with
    | error err => exact ⟨_, rfl⟩
    | ok params =>
      obtain ⟨result, hresult, hends⟩ := queryStatus_ends (p := moment.state.limiter.keyPrefix)
        (u := params.username) (h.planFor params.username) moment.exchange
      dsimp only
      rw [hresult]
      cases result with
      | ok status => exact ⟨_, rfl⟩
      | error e =>
        cases e with
        | connection => exact ⟨_, rfl⟩
        | unexpectedReturnType => exact ⟨_, rfl⟩
        | panicked => exact absurd rfl hends
  · exact ⟨_, rfl⟩

theorem handleLine_answers (codec : Codec) (line : List Char) {moment : Moment}
    (h : moment.state.config.Built) : ∃ response, handleLine codec line moment = some response := by
  unfold handleLine
  cases codec.fromStr (String.ofList line) with
  | error err => exact ⟨_, rfl⟩
  | ok value =>
    dsimp only
    cases codec.request value with
    | error err => exact ⟨_, rfl⟩
    | ok request => exact dispatch_answers codec request h

end PostfixRatelimitd
