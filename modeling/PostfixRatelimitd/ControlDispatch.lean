import PostfixRatelimitd.Control

/-!
# The class of a control request

What a request line is answered, by what the line says. The decoder of requests is a
parameter: it is known to fail on a method that is missing, that is no string, or that
does not fit into the buffer for one, and on a member that it does not know, and otherwise
to hand the members of a well-formed request on. A method that does not fit costs the
request its class and its id, and so does one member too many.
-/
namespace PostfixRatelimitd

/-! ## Requests on the line -/

/-- The members of a request. -/
def requestMembers : List String := ["jsonrpc", "method", "params", "id"]

/-- A JSON object has what a request needs: version 2.0 or none, an unsigned id or none, and
a method that is a string. -/
structure IsRequest (fields : List (String × JsonValue)) (method : String)
    (id : Option UInt64) : Prop where
  version : fields.lookup "jsonrpc" = none ∨ fields.lookup "jsonrpc" = some (.string "2.0")
  id : fields.lookup "id" = id.map (fun n => .number (.posInt n))
  method : fields.lookup "method" = some (.string method)

def requestParams (fields : List (String × JsonValue)) : JsonValue :=
  (fields.lookup "params").getD .null

/-- What is known of the decoder of requests. -/
structure Codec.Decodes (codec : Codec) : Prop where
  fits : ∀ fields method id, IsRequest fields method id → method.utf8ByteSize ≤ 32 →
    (∀ field ∈ fields, field.1 ∈ requestMembers) →
    ∃ request, codec.request (.object fields) = .ok request ∧ request.method.text = method ∧
      request.params.getD .null = requestParams fields ∧ request.id = id.map Id.num
  tooLong : ∀ fields method, fields.lookup "method" = some (.string method) →
    32 < method.utf8ByteSize → ∃ err, codec.request (.object fields) = .error err
  noMethod : ∀ fields, (∀ method, fields.lookup "method" ≠ some (.string method)) →
    ∃ err, codec.request (.object fields) = .error err
  unknown : ∀ fields, ∀ field ∈ fields, field.1 ∉ requestMembers →
    ∃ err, codec.request (.object fields) = .error err

/-! ## Replies by their class -/

def RpcResponse.code? (response : RpcResponse) : Option ErrorCode :=
  match response.payload with
  | .ok _ => none
  | .error e => some e.code

@[simp] theorem success_payload (id : Option Id) (result : JsonValue) :
    (success id result).payload = .ok result := rfl

@[simp] theorem success_code? (id : Option Id) (result : JsonValue) :
    (success id result).code? = none := rfl

@[simp] theorem failure_code? (id : Option Id) (code : ErrorCode) (message : String) :
    (failure id code message).code? = some code := rfl

theorem failure_payload_ne_ok (id : Option Id) (code : ErrorCode) (message : String)
    (result : JsonValue) : (failure id code message).payload ≠ .ok result := by
  intro h
  cases h

/-- The reply that a request with this id, method and parameters calls for. -/
structure Answers (codec : Codec) (id : Option Id) (method : String) (params : JsonValue)
    (response : RpcResponse) : Prop where
  id : response.id = id
  pong : response.payload = .ok (.string "pong") ↔ method = pingMethod
  status : ((∃ status, response.payload = .ok (StatusResponse.toValue status)) ∨
    response.code? = some .invalidParams ∨ response.code? = some .internalError) ↔
      method = limitsSaslMethod
  params : response.code? = some .invalidParams ↔
    method = limitsSaslMethod ∧ ∃ err, codec.limitsSaslParams params = .error err
  unknown : response.code? = some .methodNotFound ↔
    method ≠ pingMethod ∧ method ≠ limitsSaslMethod

/-- A line is answered by its class. -/
structure Classified (codec : Codec) (line : List Char) (moment : Moment) : Prop where
  notJson : ∀ err, codec.fromStr (String.ofList line) = .error err →
    ∃ response, handleLine codec line moment = some response ∧
      response.code? = some .parseError ∧ response.id = none
  noMethod : ∀ fields, codec.fromStr (String.ofList line) = .ok (.object fields) →
    (∀ method, fields.lookup "method" ≠ some (.string method)) →
    ∃ response, handleLine codec line moment = some response ∧
      response.code? = some .invalidRequest ∧ response.id = none
  request : ∀ fields method id, codec.fromStr (String.ofList line) = .ok (.object fields) →
    IsRequest fields method id →
    ∃ response, handleLine codec line moment = some response ∧
      Answers codec (id.map Id.num) method (requestParams fields) response

theorem StatusResponse.toValue_ne_string (status : StatusResponse) (text : String) :
    status.toValue ≠ .string text := by
  cases status with
  | unrestricted always => exact JsonValue.noConfusion
  | limited computedAt windows => exact JsonValue.noConfusion

section Dispatch
variable (codec : Codec) {id : Option Id} {method : String} {params : JsonValue}

theorem answers_success {result : JsonValue}
    (hpong : result = .string "pong" ↔ method = pingMethod)
    (hstatus : (∃ status, result = StatusResponse.toValue status) ↔ method = limitsSaslMethod)
    (hknown : method = pingMethod ∨ method = limitsSaslMethod)
    (hdecoded : ¬(method = limitsSaslMethod ∧ ∃ err, codec.limitsSaslParams params = .error err)) :
    Answers codec id method params (success id result) where
  id := rfl
  pong := (Except.ok.injEq _ _).to_iff.trans hpong
  status := by
    rw [← hstatus]
    simp
  params := iff_of_false (by simp) hdecoded
  unknown := by
    refine iff_of_false (by simp) ?_
    intro h
    cases hknown with
    | inl hping => exact h.1 hping
    | inr hlimits => exact h.2 hlimits

theorem answers_failure {code : ErrorCode} {message : String} (hping : method ≠ pingMethod)
    (hstatus : code = .invalidParams ∨ code = .internalError ↔ method = limitsSaslMethod)
    (hdecoded : code = .invalidParams ↔
      method = limitsSaslMethod ∧ ∃ err, codec.limitsSaslParams params = .error err)
    (hunknown : code = .methodNotFound ↔ method ≠ limitsSaslMethod) :
    Answers codec id method params (failure id code message) where
  id := rfl
  pong := iff_of_false (failure_payload_ne_ok _ _ _ _) hping
  status := by
    rw [← hstatus]
    simp [failure_payload_ne_ok]
  params := (Option.some.injEq _ _).to_iff.trans hdecoded
  unknown := by
    rw [failure_code?, Option.some.injEq, hunknown]
    exact (and_iff_right hping).symm

/-- A decoded request is answered by its method, with its own id. -/
theorem dispatch_answers_method (request : RpcRequest) {moment : Moment}
    (hbuilt : moment.state.config.Built) :
    ∃ response, dispatch codec request moment = some response ∧
      Answers codec request.id request.method.text (request.params.getD .null) response := by
  have hother : limitsSaslMethod ≠ pingMethod := by decide
  unfold dispatch
  split_ifs with hping hlimits
  · rw [hping]
    refine ⟨_, rfl, answers_success codec (iff_of_true rfl rfl) ?_ (.inl rfl) ?_⟩
    · refine iff_of_false ?_ hother.symm
      intro h
      obtain ⟨status, hstatus⟩ := h
      exact status.toValue_ne_string "pong" hstatus.symm
    · exact fun h => hother h.1.symm
  · rw [hlimits]
    cases hparams : codec.limitsSaslParams (request.params.getD .null) with
    | error err =>
      exact ⟨_, rfl, answers_failure codec hother (by simp) (by simp [hparams]) (by simp)⟩
    | ok params =>
      obtain ⟨result, hresult, hends⟩ := queryStatus_ends (p := moment.state.limiter.keyPrefix)
        (u := params.username) (hbuilt.planFor params.username) moment.exchange
      dsimp only
      rw [hresult]
      cases result with
      | ok status =>
        exact ⟨_, rfl, answers_success codec
          (iff_of_false (status.toValue_ne_string "pong") hother)
          (iff_of_true ⟨status, rfl⟩ rfl) (.inr rfl) (by simp [hparams])⟩
      | error e =>
        cases e with
        | panicked => exact absurd rfl hends
        | connection =>
          exact ⟨_, rfl, answers_failure codec hother (by simp) (by simp [hparams]) (by simp)⟩
        | unexpectedReturnType =>
          exact ⟨_, rfl, answers_failure codec hother (by simp) (by simp [hparams]) (by simp)⟩
  · exact ⟨_, rfl, answers_failure codec hping (by simp [hlimits]) (by simp [hlimits])
      (iff_of_true rfl hlimits)⟩

end Dispatch

/-- JSON that does not decode to a request. -/
theorem handleLine_undecoded {codec : Codec} {line : List Char} {value : JsonValue} {err : String}
    (moment : Moment) (hvalue : codec.fromStr (String.ofList line) = .ok value)
    (herr : codec.request value = .error err) :
    handleLine codec line moment =
      some (failure none .invalidRequest ("invalid request: " ++ err)) := by
  unfold handleLine
  rw [hvalue]
  dsimp only
  rw [herr]

/-- No request of the right shape is answered that it is none. -/
theorem Answers.not_invalidRequest {codec : Codec} {id : Option Id} {method : String}
    {params : JsonValue} {message : String} :
    ¬Answers codec id method params (failure none .invalidRequest message) := by
  intro h
  have hping : method ≠ pingMethod :=
    fun hmethod => failure_payload_ne_ok _ _ _ _ (h.pong.mpr hmethod)
  have hlimits : method ≠ limitsSaslMethod := by
    intro hmethod
    rcases h.status.mpr hmethod with ⟨status, hstatus⟩ | hcode | hcode
    · exact failure_payload_ne_ok _ _ _ _ hstatus
    · simp at hcode
    · simp at hcode
  have hcode := h.unknown.mpr ⟨hping, hlimits⟩
  simp at hcode

/-- Lines are answered by their class exactly when the method of a request fits into the
buffer for it and a request has no other members than its own. The others are what the
decoder makes them. -/
theorem control_lines_classified (codec : Codec) (hdecodes : codec.Decodes) (line : List Char)
    (moment : Moment) (hbuilt : moment.state.config.Built) :
    Classified codec line moment ↔
      ∀ fields method id, codec.fromStr (String.ofList line) = .ok (.object fields) →
        IsRequest fields method id →
        method.utf8ByteSize ≤ 32 ∧ ∀ field ∈ fields, field.1 ∈ requestMembers := by
  constructor
  · intro h fields method id hvalue hrequest
    have hdecoded : ∀ err, codec.request (.object fields) ≠ .error err := by
      intro err herr
      obtain ⟨response, hresponse, hanswers⟩ := h.request fields method id hvalue hrequest
      rw [handleLine_undecoded moment hvalue herr] at hresponse
      obtain rfl := Option.some.inj hresponse
      exact hanswers.not_invalidRequest
    constructor
    · by_contra hlong
      obtain ⟨err, herr⟩ := hdecodes.tooLong fields method hrequest.method (by omega)
      exact hdecoded err herr
    · intro field hfield
      by_contra hother
      obtain ⟨err, herr⟩ := hdecodes.unknown fields field hfield hother
      exact hdecoded err herr
  · intro hfits
    refine ⟨?_, ?_, ?_⟩
    · intro err herr
      refine ⟨failure none .parseError ("invalid JSON: " ++ err), ?_, rfl, rfl⟩
      unfold handleLine
      rw [herr]
    · intro fields hvalue hnone
      obtain ⟨err, herr⟩ := hdecodes.noMethod fields hnone
      exact ⟨_, handleLine_undecoded moment hvalue herr, rfl, rfl⟩
    · intro fields method id hvalue hrequest
      obtain ⟨hshort, hmembers⟩ := hfits fields method id hvalue hrequest
      obtain ⟨request, hdecode, hmethod, hparams, hid⟩ :=
        hdecodes.fits fields method id hrequest hshort hmembers
      obtain ⟨response, hresponse, hanswers⟩ := dispatch_answers_method codec request hbuilt
      refine ⟨response, ?_, hmethod ▸ hparams ▸ hid ▸ hanswers⟩
      unfold handleLine
      rw [hvalue]
      dsimp only
      rw [hdecode]
      exact hresponse

/-! ## A decoder of this kind -/

def decodeVersion : Option JsonValue → Except String Version
  | none => pure .v2
  | some (.string text) => if text = "2.0" then pure .v2 else throw "invalid version"
  | some _ => throw "invalid version"

def decodeMethod : Option JsonValue → Except String MethodName
  | some (.string text) =>
    if h : text.utf8ByteSize ≤ 32 then pure ⟨text, h⟩ else throw "method does not fit"
  | _ => throw "missing field `method`"

def decodeId : Option JsonValue → Except String (Option Id)
  | none => pure none
  | some .null => pure none
  | some (.number (.posInt n)) => pure (some (.num n))
  | some (.string text) => pure (some (.str text))
  | some _ => throw "invalid id"

def decodeParams : Option JsonValue → Option JsonValue
  | some .null => none
  | params => params

/-- The members of a request, each of them given or missing. -/
def decodeMembers (jsonrpc method params id : Option JsonValue) : Except String RpcRequest := do
  let jsonrpc ← decodeVersion jsonrpc
  let method ← decodeMethod method
  let id ← decodeId id
  pure ⟨jsonrpc, method, decodeParams params, id⟩

/-- A request from its members by name, or from all of them in order. -/
def decodeRequest : JsonValue → Except String RpcRequest
  | .object fields =>
    if fields.all (fun field => requestMembers.contains field.1) then
      decodeMembers (fields.lookup "jsonrpc") (fields.lookup "method") (fields.lookup "params")
        (fields.lookup "id")
    else throw "unknown field"
  | .array [jsonrpc, method, params, id] =>
    decodeMembers (some jsonrpc) (some method) (some params) (some id)
  | .array _ => throw "invalid length, expected struct Request with 4 elements"
  | _ => throw "invalid type, expected struct Request"

/-- The libraries at work on one line, which holds the value given. -/
def memberCodec (value : JsonValue) : Codec where
  fromStr _ := .ok value
  request := decodeRequest
  limitsSaslParams
    | .object [("username", .string username)] => pure ⟨username⟩
    | _ => throw "missing field `username`"
  toString response :=
    match response.payload with
    | .ok _ => "\x7b\"jsonrpc\":\"2.0\",\"result\":\"pong\",\"id\":7\x7d"
    | .error _ => "\x7b\"jsonrpc\":\"2.0\",\"error\":\x7b\x7d,\"id\":null\x7d"
  quoted s := "\"" ++ s ++ "\""

/-- A method that does not decode fails the request. -/
theorem decodeRequest_fails {fields : List (String × JsonValue)} {err : String}
    (hmethod : decodeMethod (fields.lookup "method") = .error err) :
    ∃ err, decodeRequest (.object fields) = .error err := by
  unfold decodeRequest decodeMembers
  dsimp only
  split
  · rw [hmethod]
    cases decodeVersion (fields.lookup "jsonrpc") with
    | error e => exact ⟨e, rfl⟩
    | ok version => exact ⟨err, rfl⟩
  · exact ⟨_, rfl⟩

theorem memberCodec_decodes (value : JsonValue) : (memberCodec value).Decodes where
  fits fields method id hrequest hfits hmembers := by
    have hversion : decodeVersion (fields.lookup "jsonrpc") = .ok .v2 := by
      rcases hrequest.version with h | h
      · rw [h]
        rfl
      · rw [h]
        rfl
    have hmethod : decodeMethod (fields.lookup "method") = .ok ⟨method, hfits⟩ := by
      rw [hrequest.method]
      exact dif_pos hfits
    have hid : decodeId (fields.lookup "id") = .ok (id.map Id.num) := by
      rw [hrequest.id]
      cases id <;> rfl
    have hparams : (decodeParams (fields.lookup "params")).getD .null = requestParams fields := by
      unfold decodeParams requestParams
      split
      · rename_i hnull
        rw [hnull]
        rfl
      · rfl
    refine ⟨⟨.v2, ⟨method, hfits⟩, decodeParams (fields.lookup "params"), id.map Id.num⟩, ?_, rfl,
      hparams, rfl⟩
    show decodeRequest (.object fields) = _
    unfold decodeRequest decodeMembers
    dsimp only
    rw [if_pos (by simpa using hmembers), hversion, hmethod, hid]
    rfl
  tooLong fields method hmethod hlong := by
    have herr : decodeMethod (fields.lookup "method") = .error "method does not fit" := by
      rw [hmethod]
      exact dif_neg (by omega)
    exact decodeRequest_fails herr
  noMethod fields hnone := by
    have herr : decodeMethod (fields.lookup "method") = .error "missing field `method`" := by
      unfold decodeMethod
      split
      · rename_i text htext
        exact absurd htext (hnone text)
      · rfl
    exact decodeRequest_fails herr
  unknown fields field hfield hother := by
    refine ⟨"unknown field", ?_⟩
    show decodeRequest (.object fields) = _
    unfold decodeRequest
    dsimp only
    rw [if_neg]
    · rfl
    · intro hall
      rw [List.all_eq_true] at hall
      exact hother (by simpa using hall field hfield)

/-- A ping with the id 7 is answered with that id. -/
theorem control_lines_classified_ping :
    let fields := [("id", JsonValue.number (.posInt 7)), ("method", .string "ping")]
    let line := "\x7b\"method\":\"ping\",\"id\":7\x7d".toList
    let config : Config := ⟨⟨.unix "/run/valkey.sock", 0, none, none, .resp2, none, none⟩,
      "postfix-ratelimitd", .defer, true, "/run/policy.sock", none, [], CheckPlan.new []⟩
    let moment : Moment :=
      ⟨⟨config, ⟨"postfix-ratelimitd"⟩, config.redisConnectionInfo⟩, fun _ => none⟩
    let codec := memberCodec (.object fields)
    Classified codec line moment ∧ IsRequest fields "ping" (some 7) ∧
      handleLine codec line moment = some (success (some (.num 7)) (.string "pong")) := by
  intro fields line config moment codec
  have hbuilt : moment.state.config.Built := ⟨by simp [moment, config], .inl rfl⟩
  refine ⟨(control_lines_classified _ (memberCodec_decodes _) line moment hbuilt).mpr ?_,
    ⟨.inl rfl, rfl, rfl⟩, rfl⟩
  intro fields' method id hvalue hrequest
  obtain rfl : fields = fields' := JsonValue.object.inj (Except.ok.inj hvalue)
  have hname : some (JsonValue.string "ping") = some (.string method) := hrequest.method
  obtain rfl := JsonValue.string.inj (Option.some.inj hname)
  exact ⟨by decide, by simp [fields, requestMembers]⟩

/-- A request for a method of 37 bytes is refused as no request at all, without its id. -/
theorem long_method_misclassified :
    let method := "limits.sasl.for.every.configured.rule"
    let fields := [("id", JsonValue.number (.posInt 7)), ("jsonrpc", .string "2.0"),
      ("method", .string method)]
    let line := ("\x7b\"jsonrpc\":\"2.0\",\"method\":\"limits.sasl.for.every.configured.rule\"" ++
      ",\"id\":7\x7d").toList
    let config : Config := ⟨⟨.unix "/run/valkey.sock", 0, none, none, .resp2, none, none⟩,
      "postfix-ratelimitd", .defer, true, "/run/policy.sock", none, [], CheckPlan.new []⟩
    let moment : Moment :=
      ⟨⟨config, ⟨"postfix-ratelimitd"⟩, config.redisConnectionInfo⟩, fun _ => none⟩
    let codec := memberCodec (.object fields)
    codec.Decodes ∧ moment.state.config.Built ∧ IsRequest fields method (some 7) ∧
      (∃ response, handleLine codec line moment = some response ∧
        response.code? = some .invalidRequest ∧ response.id = none) ∧
      ¬Classified codec line moment := by
  intro method fields line config moment codec
  have hrequest : IsRequest fields method (some 7) := ⟨.inr rfl, rfl, rfl⟩
  have hreply : handleLine codec line moment =
      some (failure none .invalidRequest "invalid request: method does not fit") := rfl
  refine ⟨memberCodec_decodes _, ⟨by simp [moment, config], .inl rfl⟩, hrequest,
    ⟨_, hreply, rfl, rfl⟩, ?_⟩
  intro h
  obtain ⟨response, hresponse, hanswers⟩ := h.request fields method (some 7) rfl hrequest
  obtain rfl := Option.some.inj (hreply.symm.trans hresponse)
  exact hanswers.not_invalidRequest

end PostfixRatelimitd
