import PostfixRatelimitd.ControlConnection
import PostfixRatelimitd.ControlDispatch
import PostfixRatelimitd.LoadConfig

/-!
# The control tool

`postfix-ratelimitctl` finds the control socket, writes one request line to it, reads one
reply line and prints what it says. Its connection may fail at every call and may end or
stall after any byte of the reply. What it prints is what the daemon on the other side
found, for the user that was asked for, and otherwise it fails.
-/
namespace PostfixRatelimitd
open Request (stripped)

/-! ## Requests -/

def newRequest (method : String) (hfits : method.utf8ByteSize ≤ 32) (params : JsonValue)
    (id : UInt64) : RpcRequest where
  jsonrpc := .v2
  method := ⟨method, hfits⟩
  params := some params
  id := some (.num id)

def newPingRequest (id : UInt64) : RpcRequest := newRequest pingMethod (by decide) .null id

def LimitsSaslParams.toValue (params : LimitsSaslParams) : JsonValue :=
  .object [("username", .string params.username)]

def newLimitsSaslRequest (username : String) (id : UInt64) : RpcRequest :=
  newRequest limitsSaslMethod (by decide) (LimitsSaslParams.toValue ⟨username⟩) id

/-! ## Decoding a result -/

namespace JsonValue

def bool? : JsonValue → Option Bool
  | bool b => some b
  | _ => none

def u64? : JsonValue → Option ℕ
  | number (.posInt n) => some n.toNat
  | _ => none

def u32? : JsonValue → Option UInt32
  | number (.posInt n) => if n.toNat < 2 ^ 32 then some (UInt32.ofNat n.toNat) else none
  | _ => none

def array? : JsonValue → Option (List JsonValue)
  | array values => some values
  | _ => none

/-- The member of an object with this name. -/
def member (name : String) : JsonValue → Option JsonValue
  | object fields => fields.lookup name
  | _ => none

end JsonValue

def WindowStatus.ofMembers (spanSecs limit currentTotal : JsonValue) : Option WindowStatus := do
  return ⟨← spanSecs.u64?, ← limit.u32?, ← currentTotal.u32?⟩

/-- From an object by its members, or from a sequence by their order. -/
def WindowStatus.ofValue : JsonValue → Option WindowStatus
  | .array [spanSecs, limit, currentTotal] => ofMembers spanSecs limit currentTotal
  | value => do
    ofMembers (← value.member "span_secs") (← value.member "limit") (← value.member "current_total")

namespace StatusResponse

def unrestrictedOfValue (value : JsonValue) : Option StatusResponse := do
  return .unrestricted (← (← value.member "unrestricted").bool?)

def limitedOfValue (value : JsonValue) : Option StatusResponse := do
  let computedAt ← (← value.member "computed_at").u64?
  let windows ← (← (← value.member "windows").array?).mapM WindowStatus.ofValue
  return .limited computedAt windows

/-- The first variant whose members are there. -/
def ofValue (value : JsonValue) : Except String StatusResponse :=
  match (unrestrictedOfValue value).or (limitedOfValue value) with
  | some status => .ok status
  | none => .error "data did not match any variant of untagged enum StatusResponse"

end StatusResponse

/-! ## The tool -/

/-- What the tool uses of the JSON libraries beyond what the daemon does. -/
structure ToolCodec extends Codec where
  toVec : RpcRequest → String
  response : String → Except String RpcResponse
  /-- why a value is no string -/
  notString : JsonValue → String
  toStringPretty : JsonValue → String

def ToolCodec.stringOfValue (codec : ToolCodec) : JsonValue → Except String String
  | .string text => .ok text
  | value => .error (codec.notString value)

/-- How a time, a duration and a share are written. -/
structure Formats where
  rfc3339Seconds : ℕ → String
  duration : ℕ → String
  percent : UInt32 → UInt32 → String

/-- The tool's end of a connection: whether its calls succeed, the bytes that come back for
what was written, and whether a read past them meets the end of the stream. -/
structure Stream where
  connect : Except String Unit
  setReadTimeout : Except String Unit
  writeAll : List UInt8 → Except String Unit
  received : List UInt8 → List UInt8
  finished : Except String Unit

/-- Read one line of what comes back; the last one may be without a line feed. -/
def Stream.readLine (stream : Stream) (written : List UInt8) : Except String (List Char) := do
  let reader := stream.received written
  (if lf ∈ reader then pure () else stream.finished)
  match (PostfixRatelimitd.readLine ⟨reader.length, reader⟩).1 with
  | .ok (_, reply) => pure reply
  | .error err => throw err.message

inductive LimitsCommand
  | sasl (username : String)

inductive Command
  | ping
  | limits (command : LimitsCommand)

structure Cli where
  config : String
  socket : Option String
  rawResponse : Bool
  command : Command

/-- What the tool is run in. -/
structure Environment where
  loader : Loader
  describe : ConfigError → String
  connect : String → Stream

/-- The socket to ask, or a line on stderr; none when loading the config panics. -/
def resolveControlSocket (environment : Environment) (socket : Option String)
    (configPath : String) : Option (Except String String) :=
  match socket with
  | some socket => some (.ok socket)
  | none =>
    (Config.load environment.loader configPath).map fun
      | .error err =>
        .error ("failed to load config " ++ configPath ++ ": " ++ environment.describe err)
      | .ok config =>
        match config.controlSocket with
        | some controlSocket => .ok controlSocket
        | none => .error
          "server.control_socket is not configured; the admin control socket is disabled"

/-- Sends a request and returns the daemon's parsed reply. -/
def sendRequest (codec : ToolCodec) (stream : Stream) (controlSocket : String)
    (request : RpcRequest) : Except String RpcResponse := do
  stream.connect.mapError
    (fun err => "failed to connect to control socket " ++ controlSocket ++ ": " ++ err)
  stream.setReadTimeout.mapError
    (fun err => "failed to set a read timeout on the control socket connection: " ++ err)
  let line := encodeUtf8 (codec.toVec request).toList ++ [lf]
  (stream.writeAll line).mapError (fun err => "failed to send request: " ++ err)
  let reply ← (stream.readLine line).mapError (fun err => "failed to read reply: " ++ err)
  (codec.response (String.ofList reply)).mapError
    (fun err => "received malformed response: " ++ err)

def ErrorCode.code : ErrorCode → Int64
  | parseError => -32700
  | invalidRequest => -32600
  | methodNotFound => -32601
  | invalidParams => -32602
  | internalError => -32603
  | serverError code => code

/-- The lines printed for the reply to a request, or a line on stderr. -/
def runQueryCommand {α : Type} (codec : ToolCodec) (stream : Stream) (controlSocket : String)
    (request : RpcRequest) (verb : String) (rawResponse : Bool)
    (fromValue : JsonValue → Except String α) (print : α → List String) :
    Except String (List String) := do
  let response ← sendRequest codec stream controlSocket request
  let result ← response.payload.mapError (fun error =>
    verb ++ " failed: " ++ error.message ++ " (code " ++ toString error.code.code ++ ")")
  let value ← (fromValue result).mapError
    (fun err => "received malformed " ++ verb ++ " result: " ++ err)
  return if rawResponse then [codec.toStringPretty result] else print value

def runPingCommand (codec : ToolCodec) (stream : Stream) (controlSocket : String)
    (rawResponse : Bool) : Except String (List String) :=
  runQueryCommand codec stream controlSocket (newPingRequest 1) "ping" rawResponse
    codec.stringOfValue (fun reply => ["control socket is up: " ++ reply])

def printStatus (formats : Formats) (username : String) : StatusResponse → List String
  | .unrestricted _ => [username ++ ": unrestricted (no rate limit)"]
  | .limited computedAt windows =>
    (username ++ ": windows as of " ++ formats.rfc3339Seconds computedAt) ::
      windows.map fun window =>
        let span := formats.duration window.spanSecs
        if window.limit = 0 then "  " ++ span ++ ": " ++ toString window.currentTotal ++ "/0"
        else "  " ++ span ++ ": " ++ toString window.currentTotal ++ "/" ++
          toString window.limit ++ " (" ++ formats.percent window.currentTotal window.limit ++ "%)"

def runStatusCommand (codec : ToolCodec) (formats : Formats) (stream : Stream)
    (controlSocket username : String) (rawResponse : Bool) : Except String (List String) :=
  runQueryCommand codec stream controlSocket (newLimitsSaslRequest username 1) "status query"
    rawResponse StatusResponse.ofValue (printStatus formats username)

/-- A whole run of the tool; none when it panics. -/
def Cli.run (cli : Cli) (codec : ToolCodec) (formats : Formats) (environment : Environment) :
    Option (Except String (List String)) :=
  (resolveControlSocket environment cli.socket cli.config).map fun resolved => do
    let controlSocket ← resolved
    let stream := environment.connect controlSocket
    match cli.command with
    | .ping => runPingCommand codec stream controlSocket cli.rawResponse
    | .limits (.sasl username) =>
      runStatusCommand codec formats stream controlSocket username cli.rawResponse

/-! ## Statuses are decoded as they were encoded -/

/-- The numbers of a status are 64-bit numbers. -/
def StatusResponse.Fits : StatusResponse → Prop
  | unrestricted _ => True
  | limited computedAt windows =>
    computedAt < 2 ^ 64 ∧ ∀ window ∈ windows, window.spanSecs < 2 ^ 64

theorem JsonValue.u64?_ofNat {n : ℕ} (h : n < 2 ^ 64) :
    (JsonValue.number (.posInt (UInt64.ofNat n))).u64? = some n :=
  congrArg some (UInt64.toNat_ofNat_of_lt' h)

theorem JsonValue.u32?_toUInt64 (n : UInt32) :
    (JsonValue.number (.posInt n.toUInt64)).u32? = some n := by
  unfold JsonValue.u32?
  dsimp only
  rw [UInt32.toNat_toUInt64, if_pos n.toNat_lt, UInt32.ofNat_toNat]

theorem WindowStatus.ofValue_toValue {status : WindowStatus} (h : status.spanSecs < 2 ^ 64) :
    WindowStatus.ofValue status.toValue = some status := by
  show WindowStatus.ofMembers (.number (.posInt (UInt64.ofNat status.spanSecs)))
    (.number (.posInt status.limit.toUInt64)) (.number (.posInt status.currentTotal.toUInt64)) = _
  unfold WindowStatus.ofMembers
  rw [JsonValue.u64?_ofNat h, JsonValue.u32?_toUInt64, JsonValue.u32?_toUInt64]
  rfl

theorem mapM_ofValue_toValue {windows : List WindowStatus}
    (h : ∀ window ∈ windows, window.spanSecs < 2 ^ 64) :
    (windows.map WindowStatus.toValue).mapM WindowStatus.ofValue = some windows := by
  induction windows with
  | nil => rfl
  | cons window windows ih =>
    obtain ⟨hwindow, hwindows⟩ := List.forall_mem_cons.mp h
    rw [List.map_cons, List.mapM_cons, WindowStatus.ofValue_toValue hwindow, ih hwindows]
    rfl

/-- Neither variant is taken for the other. -/
theorem StatusResponse.ofValue_toValue {status : StatusResponse} (h : status.Fits) :
    StatusResponse.ofValue status.toValue = .ok status := by
  cases status with
  | unrestricted always => rfl
  | limited computedAt windows =>
    have hlimited : limitedOfValue (limited computedAt windows).toValue =
        some (limited computedAt windows) := by
      show (JsonValue.number (.posInt (UInt64.ofNat computedAt))).u64?.bind (fun computedAt =>
        ((windows.map WindowStatus.toValue).mapM WindowStatus.ofValue).bind fun windows =>
          some (limited computedAt windows)) = _
      rw [JsonValue.u64?_ofNat h.1, mapM_ofValue_toValue h.2]
      rfl
    have hother : unrestrictedOfValue (limited computedAt windows).toValue = none := rfl
    unfold ofValue
    rw [hother, hlimited]
    rfl

namespace QueryState
variable {p u : String} {plan : CheckPlan}

/-- The time of a query is a 64-bit number, once it is known. -/
def Timed : QueryState → Prop
  | reading now _ => now < 2 ^ 64
  | _ => True

theorem Timed.send {q : QueryState} (h : q.Timed) (exchange : Exchange) :
    (q.send p u plan exchange).Timed := by
  cases exchange with
  | none => cases q <;> trivial
  | some reply =>
    cases q with
    | failed e => trivial
    | start =>
      have htime := reply.1.secs_lt
      show reply.1.secs < 2 ^ 64
      omega
    | reading now bucketsByKey =>
      show (step p u plan reply.1 reply.2 (reading now bucketsByKey)).Timed
      unfold step
      dsimp only
      split
      · exact h
      · split
        · exact h
        · trivial

theorem sent_timed (p u : String) (plan : CheckPlan) (exchange : ℕ → Exchange) (n : ℕ) :
    (sent p u plan exchange n).Timed := by
  induction n with
  | zero => trivial
  | succ n ih => exact ih.send _

end QueryState

/-- What a query under a built plan reports are 64-bit numbers. -/
theorem queryStatus_fits {p u : String} {plan : CheckPlan} {exchange : ℕ → Exchange}
    {status : StatusResponse} (hplan : plan.Built)
    (h : queryStatus p u plan exchange = some (.ok status)) : status.Fits := by
  unfold queryStatus at h
  split at h
  · cases h
    trivial
  · have htimed := QueryState.sent_timed p u plan exchange (plan.bucketSizes.length + 1)
    cases hq : QueryState.sent p u plan exchange (plan.bucketSizes.length + 1) with
    | start =>
      rw [hq] at h
      cases h
    | failed e =>
      rw [hq] at h
      cases h
    | reading now bucketsByKey =>
      rw [hq] at h htimed
      have hread : bucketsByKey.length = plan.bucketSizes.length := by
        by_contra hother
        unfold QueryState.response at h
        dsimp only at h
        rw [if_neg hother] at h
        cases h
      rw [response_reading hplan.wellFormed hread] at h
      cases h
      refine ⟨htimed, ?_⟩
      intro window hwindow
      obtain ⟨planned, hplanned, rfl⟩ := List.mem_map.mp hwindow
      obtain ⟨b, r, hslot, hspan⟩ := hplan.wellFormed.served planned hplanned
      have hr := (hplan.wellFormed.shortLived b r (List.mem_of_getElem? hslot)).2
      show planned.spanSecs < 2 ^ 64
      omega

/-! ## What the tool relies on -/

/-- The daemon reads a request of the tool back, up to parameters that are null, and no part
of it ends a line. -/
structure ToolCodec.Carries (codec : ToolCodec) (request : RpcRequest) : Prop where
  oneLine : ∀ c ∈ (codec.toVec request).toList, Request.isLineEnd c = false
  decoded : ∃ value decoded, codec.fromStr (codec.toVec request) = .ok value ∧
    codec.request value = .ok decoded ∧ decoded.method = request.method ∧
    decoded.params.getD .null = request.params.getD .null ∧ decoded.id = request.id

/-- The tool reads a response of the daemon back, with its line feed or without, and nothing
less than all of it. -/
structure ToolCodec.Returns (codec : ToolCodec) (response : RpcResponse) : Prop where
  oneLine : '\n' ∉ (codec.toString response).toList
  whole : codec.response (codec.toString response) = .ok response
  line : codec.response (codec.toString response ++ "\n") = .ok response
  cut : ∀ text, text <+: (codec.toString response).toList →
    text ≠ (codec.toString response).toList →
      ∃ err, codec.response (String.ofList text) = .error err

/-- What a daemon answers to one line: the response to it, or an error if it is too long. -/
def CanAnswer (codec : Codec) (line : List Char) (moment : Moment) (response : RpcResponse) :
    Prop :=
  ((encodeUtf8 line).length + 1 ≤ maxControlRequestBytes ∧
    handleLine codec (stripped line) moment = some response) ∨
  (maxControlRequestBytes < (encodeUtf8 line).length + 1 ∧
    ∃ message, response = failure none .invalidRequest message)

/-- No call fails, and all that the daemon writes comes back. -/
structure Stream.Works (stream : Stream) (codec : Codec) (moments : ℕ → Moment) : Prop where
  connect : stream.connect = .ok ()
  setReadTimeout : stream.setReadTimeout = .ok ()
  writeAll : ∀ written, stream.writeAll written = .ok ()
  received : ∀ written, stream.received written = (handleConnection codec moments written).written

/-! ## One request and its reply -/

section Exchange
variable {codec : ToolCodec} {moments : ℕ → Moment} {stream : Stream}

/-- One line gets one reply, unless it is too long: then it may get none. -/
theorem handleConnection_line (codec : ToolCodec) {line : List Char} (hline : '\n' ∉ line)
    (hbuilt : (moments 0).state.config.Built) :
    ∃ response, CanAnswer codec.toCodec line (moments 0) response ∧
      let written := (handleConnection codec.toCodec moments (encodeUtf8 line ++ [lf])).written
      written <+: writeResponse codec.toCodec response ∧
      ((encodeUtf8 line).length + 1 ≤ maxControlRequestBytes →
        written = writeResponse codec.toCodec response) := by
  rcases Nat.lt_or_ge maxControlRequestBytes ((encodeUtf8 line).length + 1) with hlong | hfits
  · have hframed : Framed (line ++ ['\n']) [] (line ++ ['\n']) :=
      framed_of_long_line hline hlong rfl
    have hrest : line ++ ['\n'] ≠ [] := List.append_ne_nil_of_right_ne_nil _ (by simp)
    obtain ⟨hreplied, hsilent⟩ := handleConnection_rest codec.toCodec moments hrest
      hframed.rest_capped
    rw [encodeUtf8_append, encodeUtf8_lf] at hreplied hsilent
    by_cases hboundary : CapOnBoundary (line ++ ['\n'])
    · obtain ⟨message, hreply⟩ := hreplied hboundary
      have hwritten := congrArg Connection.written hreply
      exact ⟨_, .inr ⟨hlong, message, rfl⟩, hwritten ▸ List.prefix_rfl, fun _ => by omega⟩
    · refine ⟨_, .inr ⟨hlong, "", rfl⟩, ?_, fun _ => by omega⟩
      rw [hsilent hboundary]
      exact List.nil_prefix
  · obtain ⟨response, hresponse⟩ := handleLine_answers codec.toCodec (stripped line) hbuilt
    have hreply : handleConnection codec.toCodec moments (encodeUtf8 line ++ lf :: []) = _ :=
      handleConnection_fits hline hfits hresponse
    rw [handleConnection_nil, List.append_nil] at hreply
    have hwritten := congrArg Connection.written hreply
    exact ⟨response, .inl ⟨hfits, hresponse⟩, hwritten ▸ List.prefix_rfl, fun _ => hwritten⟩

/-- What is read of one line is all of it or, if it ends early, a part of its text. -/
theorem Stream.readLine_ok {text reply : List Char} {written : List UInt8} (htext : '\n' ∉ text)
    (hpart : stream.received written <+: encodeUtf8 text ++ [lf])
    (h : stream.readLine written = .ok reply) : reply = text ++ ['\n'] ∨ reply <+: text := by
  obtain ⟨_, _, h⟩ := except_bind_ok_iff.mp h
  rcases List.prefix_concat_iff.mp hpart with hall | hcut
  · left
    rw [hall, List.length_append, List.length_singleton, readLine_fits htext (le_refl _)] at h
    exact (Except.ok.inj h).symm
  · right
    have hno : lf ∉ stream.received written :=
      fun hlf => htext (lf_mem_encodeUtf8.mp (hcut.subset hlf))
    have hall : Limited.chunk ⟨(stream.received written).length, stream.received written⟩ =
        stream.received written := by
      unfold Limited.chunk
      rw [List.take_length, takeThrough_of_notMem hno]
    cases hread : PostfixRatelimitd.readLine
        ⟨(stream.received written).length, stream.received written⟩ with
    | mk result left =>
      rw [hread] at h
      cases result with
      | error err => cases h
      | ok line =>
        obtain rfl := Except.ok.inj h
        apply isPrefix_of_encodeUtf8
        rw [← readLine_ok_chunk hread, hall]
        exact hcut

theorem Stream.readLine_whole {text : List Char} {written : List UInt8} (htext : '\n' ∉ text)
    (hall : stream.received written = encodeUtf8 text ++ [lf]) :
    stream.readLine written = .ok (text ++ ['\n']) := by
  unfold Stream.readLine
  dsimp only
  rw [hall, if_pos (by simp), List.length_append, List.length_singleton,
    readLine_fits htext (le_refl _)]
  rfl

theorem mapError_ok_iff {ε ε' α : Type} {f : ε → ε'} {x : Except ε α} {a : α} :
    x.mapError f = .ok a ↔ x = .ok a := by
  cases x with
  | error e => simp [Except.mapError]
  | ok b => simp [Except.mapError]

variable {controlSocket : String} {request : RpcRequest} {response : RpcResponse}

/-- Whatever goes wrong, no other response is taken for the daemon's. -/
theorem sendRequest_ok {answer : RpcResponse} (hreturns : codec.Returns response)
    (hpart : stream.received (encodeUtf8 (codec.toVec request).toList ++ [lf]) <+:
      writeResponse codec.toCodec response)
    (h : sendRequest codec stream controlSocket request = .ok answer) : answer = response := by
  unfold sendRequest at h
  obtain ⟨_, _, h⟩ := except_bind_ok_iff.mp h
  obtain ⟨_, _, h⟩ := except_bind_ok_iff.mp h
  obtain ⟨_, _, h⟩ := except_bind_ok_iff.mp h
  obtain ⟨reply, hreply, h⟩ := except_bind_ok_iff.mp h
  rw [mapError_ok_iff] at hreply h
  have hanswer : codec.response (String.ofList reply) = .ok response := by
    rcases Stream.readLine_ok hreturns.oneLine hpart hreply with rfl | hcut
    · rw [String.ofList_append, String.ofList_toList]
      exact hreturns.line
    · by_cases hwhole : reply = (codec.toString response).toList
      · rw [hwhole, String.ofList_toList]
        exact hreturns.whole
      · obtain ⟨err, herr⟩ := hreturns.cut reply hcut hwhole
        rw [herr] at h
        cases h
  rw [hanswer] at h
  exact (Except.ok.inj h).symm

theorem sendRequest_works (hworks : stream.Works codec.toCodec moments)
    (hreturns : codec.Returns response)
    (hwritten : (handleConnection codec.toCodec moments
      (encodeUtf8 (codec.toVec request).toList ++ [lf])).written =
        writeResponse codec.toCodec response) :
    sendRequest codec stream controlSocket request = .ok response := by
  have hread := Stream.readLine_whole hreturns.oneLine ((hworks.received _).trans hwritten)
  unfold sendRequest
  dsimp only
  rw [hworks.connect, hworks.setReadTimeout, hworks.writeAll, hread]
  show (codec.response (String.ofList _)).mapError _ = _
  rw [String.ofList_append, String.ofList_toList]
  exact mapError_ok_iff.mpr hreturns.line

theorem runQueryCommand_ok_iff {α : Type} {verb : String} {rawResponse : Bool}
    {fromValue : JsonValue → Except String α} {print : α → List String} {output : List String} :
    runQueryCommand codec stream controlSocket request verb rawResponse fromValue print =
        .ok output ↔
      ∃ response result value, sendRequest codec stream controlSocket request = .ok response ∧
        response.payload = .ok result ∧ fromValue result = .ok value ∧
        output = if rawResponse then [codec.toStringPretty result] else print value := by
  unfold runQueryCommand
  simp only [except_bind_ok_iff, mapError_ok_iff, pure_ok_iff]
  constructor
  · rintro ⟨response, hsend, result, hresult, value, hvalue, rfl⟩
    exact ⟨response, result, value, hsend, hresult, hvalue, rfl⟩
  · rintro ⟨response, result, value, hsend, hresult, hvalue, rfl⟩
    exact ⟨response, hsend, result, hresult, value, hvalue, rfl⟩

end Exchange

/-! ## What the daemon makes of the tool's requests -/

section Dispatch
variable {codec : ToolCodec} {request : RpcRequest} {moment : Moment}

theorem ToolCodec.Carries.stripped (h : codec.Carries request) :
    Request.stripped (codec.toVec request).toList = (codec.toVec request).toList := by
  apply List.rdropWhile_eq_self_iff.mpr
  intro hne hcr
  have hend := h.oneLine _ (List.getLast_mem hne)
  rw [eq_of_beq hcr] at hend
  exact absurd hend (by decide)

theorem ToolCodec.Carries.lf_notMem (h : codec.Carries request) :
    '\n' ∉ (codec.toVec request).toList :=
  fun hmem => absurd (h.oneLine _ hmem) (by decide)

/-- The daemon dispatches the request that the tool was to send. -/
theorem ToolCodec.Carries.handleLine (h : codec.Carries request) :
    handleLine codec.toCodec (Request.stripped (codec.toVec request).toList) moment =
      dispatch codec.toCodec request moment := by
  obtain ⟨value, decoded, hvalue, hdecoded, hmethod, hparams, hid⟩ := h.decoded
  unfold PostfixRatelimitd.handleLine
  rw [h.stripped, String.ofList_toList, hvalue]
  dsimp only
  rw [hdecoded]
  dsimp only
  unfold dispatch
  rw [hmethod, hparams, hid]

theorem dispatch_ping : dispatch codec.toCodec (newPingRequest 1) moment =
    some (success (some (.num 1)) (.string "pong")) := rfl

theorem dispatch_limits {username : String}
    (hparams : codec.limitsSaslParams (LimitsSaslParams.toValue ⟨username⟩) = .ok ⟨username⟩)
    (hbuilt : moment.state.config.Built) :
    ∃ result, queryStatus moment.state.limiter.keyPrefix username
        (moment.state.config.planFor username) moment.exchange = some result ∧
      dispatch codec.toCodec (newLimitsSaslRequest username 1) moment = some (match result with
        | .ok status => success (some (.num 1)) status.toValue
        | .error _ => failure (some (.num 1)) .internalError "error checking status") := by
  obtain ⟨result, hresult, hends⟩ := queryStatus_ends (p := moment.state.limiter.keyPrefix)
    (u := username) (hbuilt.planFor username) moment.exchange
  refine ⟨result, hresult, ?_⟩
  unfold dispatch
  have hother : ¬(newLimitsSaslRequest username 1).method.text = pingMethod :=
    show ¬limitsSaslMethod = pingMethod by decide
  have hlimits : (newLimitsSaslRequest username 1).method.text = limitsSaslMethod := rfl
  have hvalue : (newLimitsSaslRequest username 1).params.getD .null =
    LimitsSaslParams.toValue ⟨username⟩ := rfl
  rw [if_neg hother, if_pos hlimits, hvalue, hparams]
  dsimp only
  rw [hresult]
  cases result with
  | ok status => rfl
  | error e =>
    cases e with
    | connection => rfl
    | unexpectedReturnType => rfl
    | panicked => exact absurd rfl hends

end Dispatch

/-! ## What is printed -/

namespace Command

def request : Command → RpcRequest
  | ping => newPingRequest 1
  | limits (.sasl username) => newLimitsSaslRequest username 1

/-- What the lines printed for a command say: that the daemon is there, or the status that it
found for the user. -/
def Shows (codec : ToolCodec) (formats : Formats) (rawResponse : Bool) (moment : Moment)
    (output : List String) : Command → Prop
  | ping => output = if rawResponse then [codec.toStringPretty (.string "pong")]
      else ["control socket is up: pong"]
  | limits (.sasl username) =>
    ∃ status, queryStatus moment.state.limiter.keyPrefix username
        (moment.state.config.planFor username) moment.exchange = some (.ok status) ∧
      output = if rawResponse then [codec.toStringPretty status.toValue]
        else printStatus formats username status

/-- The line of the request is no longer than the daemon reads. -/
def Fits (codec : ToolCodec) (command : Command) : Prop :=
  (encodeUtf8 (codec.toVec command.request).toList).length + 1 ≤ maxControlRequestBytes

/-- The lines printed for a command, once the socket is known. -/
def output (codec : ToolCodec) (formats : Formats) (stream : Stream) (controlSocket : String)
    (rawResponse : Bool) : Command → Except String (List String)
  | ping => runPingCommand codec stream controlSocket rawResponse
  | limits (.sasl username) =>
    runStatusCommand codec formats stream controlSocket username rawResponse

variable {codec : ToolCodec} {formats : Formats} {stream : Stream} {controlSocket : String}
  {rawResponse : Bool} {moments : ℕ → Moment} {command : Command} {output : List String}

/-- A command prints something only when the response that was sent for it has a result. -/
theorem output_ok_iff (hbuilt : (moments 0).state.config.Built)
    (hparams : ∀ username,
      codec.limitsSaslParams (LimitsSaslParams.toValue ⟨username⟩) = .ok ⟨username⟩)
    {response : RpcResponse}
    (hdispatch : dispatch codec.toCodec command.request (moments 0) = some response)
    (hsent : ∀ answer, sendRequest codec stream controlSocket command.request = .ok answer →
      answer = response) :
    command.output codec formats stream controlSocket rawResponse = .ok output ↔
      sendRequest codec stream controlSocket command.request = .ok response ∧
        command.Shows codec formats rawResponse (moments 0) output := by
  cases command with
  | ping =>
    rw [request, dispatch_ping] at hdispatch
    obtain rfl := Option.some.inj hdispatch
    refine runQueryCommand_ok_iff.trans ?_
    constructor
    · rintro ⟨answer, result, reply, hsend, hresult, hreply, rfl⟩
      obtain rfl := hsent answer hsend
      obtain rfl := Except.ok.inj hresult
      obtain rfl := Except.ok.inj hreply
      exact ⟨hsend, rfl⟩
    · rintro ⟨hsend, rfl⟩
      exact ⟨_, .string "pong", "pong", hsend, rfl, rfl, rfl⟩
  | limits limitsCommand =>
    obtain ⟨username⟩ := limitsCommand
    obtain ⟨found, hfound, hlimits⟩ := dispatch_limits (hparams username) hbuilt
    rw [request, hlimits] at hdispatch
    obtain rfl := Option.some.inj hdispatch
    refine runQueryCommand_ok_iff.trans ?_
    cases found with
    | error e =>
      constructor
      · rintro ⟨answer, result, status, hsend, hresult, _⟩
        obtain rfl := hsent answer hsend
        cases hresult
      · rintro ⟨_, status, hstatus, _⟩
        rw [hfound] at hstatus
        cases hstatus
    | ok status =>
      have hdecoded := StatusResponse.ofValue_toValue
        (queryStatus_fits (hbuilt.planFor username) hfound)
      constructor
      · rintro ⟨answer, result, decoded, hsend, hresult, hvalue, rfl⟩
        obtain rfl := hsent answer hsend
        obtain rfl := Except.ok.inj hresult
        obtain rfl := Except.ok.inj (hdecoded.symm.trans hvalue)
        exact ⟨hsend, status, hfound, rfl⟩
      · rintro ⟨hsend, shown, hshown, rfl⟩
        obtain rfl := Except.ok.inj (Option.some.inj (hfound.symm.trans hshown))
        exact ⟨_, _, _, hsend, rfl, hdecoded, rfl⟩

theorem output_ok_payload
    (h : command.output codec formats stream controlSocket rawResponse = .ok output) :
    ∃ response result, sendRequest codec stream controlSocket command.request = .ok response ∧
      response.payload = .ok result := by
  cases command with
  | ping =>
    obtain ⟨response, result, _, hsend, hresult, _⟩ := runQueryCommand_ok_iff.mp h
    exact ⟨response, result, hsend, hresult⟩
  | limits limitsCommand =>
    obtain ⟨username⟩ := limitsCommand
    obtain ⟨response, result, _, hsend, hresult, _⟩ := runQueryCommand_ok_iff.mp h
    exact ⟨response, result, hsend, hresult⟩

end Command

theorem Cli.run_eq {cli : Cli} {codec : ToolCodec} {formats : Formats} {environment : Environment}
    {controlSocket : String}
    (hsocket : resolveControlSocket environment cli.socket cli.config = some (.ok controlSocket)) :
    cli.run codec formats environment = some (cli.command.output codec formats
      (environment.connect controlSocket) controlSocket cli.rawResponse) := by
  unfold Cli.run
  rw [hsocket]
  cases cli.command with
  | ping => rfl
  | limits limitsCommand => rfl

/-- A failure of the daemon's query is what the tool fails with. -/
theorem Command.output_failed {codec : ToolCodec} {formats : Formats} {stream : Stream}
    {controlSocket username : String} {rawResponse : Bool}
    (hsend : sendRequest codec stream controlSocket (newLimitsSaslRequest username 1) =
      .ok (failure (some (.num 1)) .internalError "error checking status")) :
    (limits (.sasl username)).output codec formats stream controlSocket rawResponse =
      .error "status query failed: error checking status (code -32603)" := by
  show runQueryCommand codec stream controlSocket _ _ _ _ _ = _
  unfold runQueryCommand
  rw [hsend]
  have hmessage : "status query" ++ " failed: " ++ "error checking status" ++ " (code " ++
      toString ErrorCode.internalError.code ++ ")" =
        "status query failed: error checking status (code -32603)" := by decide
  exact congrArg Except.error hmessage

/-- What the tool prints is what the daemon on the other side answers to the command: that it is
there, or the status of just that user as its query found it, whatever becomes of the connection
in between. While the connection works and the request is not too long, it prints that whenever
there is such an answer, and if the query failed it says so. -/
theorem tool_shows_answer (cli : Cli) (codec : ToolCodec) (formats : Formats)
    (environment : Environment) (controlSocket : String) (moments : ℕ → Moment)
    (hsocket : resolveControlSocket environment cli.socket cli.config = some (.ok controlSocket))
    (hbuilt : (moments 0).state.config.Built) (hcarries : codec.Carries cli.command.request)
    (hparams : ∀ username,
      codec.limitsSaslParams (LimitsSaslParams.toValue ⟨username⟩) = .ok ⟨username⟩)
    (hreturns : ∀ response, CanAnswer codec.toCodec (codec.toVec cli.command.request).toList
      (moments 0) response → codec.Returns response)
    (hdaemon : ∀ written, (environment.connect controlSocket).received written <+:
      (handleConnection codec.toCodec moments written).written) :
    (∀ output, cli.run codec formats environment = some (.ok output) →
      cli.command.Fits codec ∧
        cli.command.Shows codec formats cli.rawResponse (moments 0) output) ∧
    ((environment.connect controlSocket).Works codec.toCodec moments → cli.command.Fits codec →
      (∀ output, cli.command.Shows codec formats cli.rawResponse (moments 0) output →
        cli.run codec formats environment = some (.ok output)) ∧
      ∀ username e, cli.command = .limits (.sasl username) →
        queryStatus (moments 0).state.limiter.keyPrefix username
          ((moments 0).state.config.planFor username) (moments 0).exchange = some (.error e) →
        cli.run codec formats environment =
          some (.error "status query failed: error checking status (code -32603)")) := by
  rw [Cli.run_eq hsocket]
  obtain ⟨response, hanswer, hpart, hwhole⟩ := handleConnection_line codec
    hcarries.lf_notMem hbuilt
  have hsent : ∀ answer, sendRequest codec (environment.connect controlSocket) controlSocket
      cli.command.request = .ok answer → answer = response :=
    fun answer => sendRequest_ok (hreturns response hanswer) ((hdaemon _).trans hpart)
  rcases hanswer with ⟨hfits, hline⟩ | ⟨hlong, message, rfl⟩
  · rw [hcarries.handleLine] at hline
    have hprinted : ∀ output, cli.command.output codec formats
        (environment.connect controlSocket) controlSocket cli.rawResponse = .ok output ↔ _ :=
      fun output => Command.output_ok_iff hbuilt hparams hline hsent
    refine ⟨?_, ?_⟩
    · intro output houtput
      exact ⟨hfits, ((hprinted output).mp (Option.some.inj houtput)).2⟩
    · intro hworks _
      have hreturned := hreturns response (.inl ⟨hfits, hcarries.handleLine.trans hline⟩)
      have hsend : sendRequest codec (environment.connect controlSocket) controlSocket
          cli.command.request = .ok response := sendRequest_works hworks hreturned (hwhole hfits)
      refine ⟨fun output hshows => congrArg some ((hprinted output).mpr ⟨hsend, hshows⟩), ?_⟩
      intro username e hcommand hfailed
      rw [hcommand] at hline hsend ⊢
      obtain ⟨result, hresult, hlimits⟩ := dispatch_limits (hparams username) hbuilt
      obtain rfl := Option.some.inj (hfailed.symm.trans hresult)
      obtain rfl := Option.some.inj (hlimits.symm.trans hline)
      exact congrArg some (Command.output_failed hsend)
  · -- A reply to a line that is too long is an error.
    refine ⟨?_, fun _ hfits => absurd hfits (by unfold Command.Fits; omega)⟩
    intro output houtput
    obtain ⟨answer, result, hsend, hresult⟩ :=
      Command.output_ok_payload (Option.some.inj houtput)
    rw [hsent answer hsend] at hresult
    exact absurd hresult (failure_payload_ne_ok _ _ _ _)

/-- The libraries at work on one request for a status, and on the response to it. -/
def statusCodec (params result : JsonValue) (request response : String) : ToolCodec where
  toCodec := { memberCodec (.object [("id", .number (.posInt 1)), ("jsonrpc", .string "2.0"),
      ("method", .string "limits.sasl"), ("params", params)]) with toString := fun _ => response }
  toVec _ := request
  response text :=
    if text = response ∨ text = response ++ "\n" then .ok (success (some (.num 1)) result)
    else .error "EOF while parsing an object"
  notString _ := "invalid type: map, expected a string"
  toStringPretty _ := response

theorem statusCodec_returns {params result : JsonValue} {request response : String}
    (hline : '\n' ∉ response.toList) :
    (statusCodec params result request response).Returns (success (some (.num 1)) result) where
  oneLine := hline
  whole := if_pos (.inl rfl)
  line := if_pos (.inr rfl)
  cut text hpart hcut := by
    refine ⟨_, if_neg ?_⟩
    rintro (hall | hall)
    · refine hcut ?_
      rw [← String.toList_ofList (l := text), hall]
      rfl
    · have hlength := hpart.length_le
      have htext := congrArg String.toList hall
      rw [String.toList_ofList, String.toList_append] at htext
      rw [htext, List.length_append] at hlength
      have hresponse : ((statusCodec params result request response).toString
        (success (some (.num 1)) result)).toList = response.toList := rfl
      have hlf : "\n".toList.length = 1 := rfl
      rw [hresponse] at hlength
      omega

/-- A user with a limit of 3 messages a minute who has sent none. -/
theorem tool_shows_answer_minute :
    let config : Config := ⟨⟨.unix "/run/valkey.sock", 0, none, none, .resp2, none, none⟩,
      "postfix-ratelimitd", .defer, true, "/run/policy.sock", some "/run/control.sock", [],
      CheckPlan.new [⟨3, .fromSecs 60⟩]⟩
    let moments : ℕ → Moment := fun _ =>
      ⟨⟨config, ⟨"postfix-ratelimitd"⟩, config.redisConnectionInfo⟩,
        fun _ => some (⟨30000000, by decide⟩, Keyspace.empty)⟩
    let codec := statusCodec (.object [("username", .string "alice")])
      (StatusResponse.limited 30 [⟨60, 3, 0⟩]).toValue
      ("\x7b\"jsonrpc\":\"2.0\",\"method\":\"limits.sasl\"," ++
        "\"params\":\x7b\"username\":\"alice\"\x7d,\"id\":1\x7d")
      ("\x7b\"jsonrpc\":\"2.0\",\"result\":\x7b\"computed_at\":30,\"windows\":" ++
        "[\x7b\"current_total\":0,\"limit\":3,\"span_secs\":60\x7d]\x7d,\"id\":1\x7d")
    let environment : Environment := ⟨⟨fun _ => none, fun _ => none, fun _ => none, fun _ => none⟩,
      fun _ => "", fun _ => ⟨.ok (), .ok (), fun _ => .ok (),
        fun written => (handleConnection codec.toCodec moments written).written, .ok ()⟩⟩
    let cli : Cli := ⟨"/etc/postfix-ratelimitd.toml", some "/run/control.sock", false,
      .limits (.sasl "alice")⟩
    cli.run codec ⟨fun _ => "1970-01-01T00:00:30Z", fun _ => "1m", fun _ _ => "0.0"⟩ environment =
      some (.ok ["alice: windows as of 1970-01-01T00:00:30Z", "  1m: 0/3 (0.0%)"]) := by
  intro config moments codec environment cli
  have hbuilt : (moments 0).state.config.Built :=
    ⟨by simp [moments, config], .inr ⟨0, [⟨3, .fromSecs 60⟩], by decide, rfl⟩⟩
  have hquery : queryStatus (moments 0).state.limiter.keyPrefix "alice"
      ((moments 0).state.config.planFor "alice") (moments 0).exchange =
        some (.ok (.limited 30 [⟨60, 3, 0⟩])) := by decide +kernel
  have hchars : (codec.toVec cli.command.request).toList.all (fun c => !Request.isLineEnd c) =
      true := by decide +kernel
  have hcarries : codec.Carries cli.command.request :=
    ⟨by simpa using hchars, _, _, rfl, rfl, rfl, rfl, rfl⟩
  have hfits : cli.command.Fits codec := by
    unfold Command.Fits
    decide +kernel
  have hreturns : ∀ response, CanAnswer codec.toCodec (codec.toVec cli.command.request).toList
      (moments 0) response → codec.Returns response := by
    rintro response (⟨_, hline⟩ | ⟨hlong, _⟩)
    · rw [hcarries.handleLine] at hline
      have hparams : codec.limitsSaslParams (LimitsSaslParams.toValue ⟨"alice"⟩) =
          .ok ⟨"alice"⟩ := rfl
      obtain ⟨result, hresult, hlimits⟩ := dispatch_limits hparams hbuilt
      obtain rfl := Option.some.inj (hquery.symm.trans hresult)
      obtain rfl := Option.some.inj (hlimits.symm.trans hline)
      exact statusCodec_returns (by decide +kernel)
    · exact absurd hfits (by unfold Command.Fits; omega)
  exact ((tool_shows_answer cli codec _ environment "/run/control.sock" moments rfl hbuilt hcarries
    (fun _ => rfl) hreturns (fun _ => List.prefix_rfl)).2
      ⟨rfl, rfl, fun _ => rfl, fun _ => rfl⟩ hfits).1 _ ⟨_, hquery, rfl⟩

end PostfixRatelimitd
