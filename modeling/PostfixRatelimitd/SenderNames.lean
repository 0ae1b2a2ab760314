import PostfixRatelimitd.ControlConnection
import PostfixRatelimitd.ControlDispatch
import PostfixRatelimitd.Daemon
import PostfixRatelimitd.LoadConfig

/-!
# What a sender is called

A name on a policy line is trimmed before a rule or a key sees it, and it has to fit into
a request. The config file and the control socket take names as they are. A name that
trimming changes is therefore another sender's on a policy line, and one that trimming
never yields, or that no request has room for, is nobody's.
-/
namespace PostfixRatelimitd
open Keyspace (left outcome)

namespace Request

/-! ## Trimmed names -/

/-- What begins without blanks has none to drop in front. -/
theorem dropWhile_of_prefix {p : Char → Bool} {xs ys : List Char} (h : xs <+: ys.dropWhile p) :
    xs.dropWhile p = xs := by
  cases xs with
  | nil => rfl
  | cons x xs =>
    obtain ⟨rest, hrest⟩ := h
    have hhead := List.head?_dropWhile_not p ys
    rw [← hrest] at hhead
    have hx : p x = false := hhead
    rw [List.dropWhile_cons, hx]
    rfl

theorem trim_trim (s : String) : trim (trim s) = trim s := by
  have hfront : ((s.toList.dropWhile isWhitespace).rdropWhile isWhitespace).dropWhile isWhitespace =
      (s.toList.dropWhile isWhitespace).rdropWhile isWhitespace :=
    dropWhile_of_prefix (List.rdropWhile_prefix _ _)
  unfold trim
  rw [String.toList_ofList, hfront, List.rdropWhile_idempotent]

theorem trim_length_le (s : String) :
    (encodeUtf8 (trim s).toList).length ≤ (encodeUtf8 s.toList).length := by
  have hsub : (trim s).toList <:+: s.toList := by
    unfold trim
    rw [String.toList_ofList]
    exact (List.rdropWhile_prefix _ _).isInfix.trans (List.dropWhile_suffix _).isInfix
  obtain ⟨front, back, hs⟩ := hsub
  rw [← hs, encodeUtf8_append, encodeUtf8_append, List.length_append, List.length_append]
  omega

theorem saslUsername_eq_some_iff {r : Request} {u : String} :
    r.saslUsername = some u ↔ ∃ v, r.attributes "sasl_username" = some v ∧ trim v = u ∧ u ≠ "" := by
  unfold saslUsername
  cases r.attributes "sasl_username" with
  | none => simp
  | some v =>
    rw [Option.map_some, Option.filter_eq_some_iff]
    constructor
    · intro h
      obtain ⟨hv, hne⟩ := h
      exact ⟨v, rfl, Option.some.inj hv, by simpa using hne⟩
    · intro h
      obtain ⟨w, hw, hu, hne⟩ := h
      obtain rfl := Option.some.inj hw
      exact ⟨congrArg some hu, by simpa using hne⟩

/-! ## Names that fit -/

section Fits
variable {attributes : String → Option String} {limited rest : Limited} {r : Request}

/-- What is left of a line is shorter by its line feed at least. -/
theorem trimEndMatches_length {line : List Char} (h : line.getLast? = some '\n') :
    (encodeUtf8 (trimEndMatches isLineEnd line)).length + 1 ≤ (encodeUtf8 line).length := by
  obtain ⟨front, rfl⟩ := List.getLast?_eq_some_iff.mp h
  obtain ⟨back, hback⟩ := List.rdropWhile_prefix isLineEnd front
  have hlength := congrArg (fun text => (encodeUtf8 text).length) hback
  simp only [encodeUtf8_append, List.length_append] at hlength
  unfold trimEndMatches
  rw [List.rdropWhile_concat_pos _ _ _ (by rfl), encodeUtf8_append, List.length_append]
  have hlf : (encodeUtf8 ['\n']).length = 1 := rfl
  omega

/-- A request's blank line takes a byte at least. -/
theorem readLines_some_pos (h : readLines attributes limited = (.ok (some r), rest)) :
    0 < limited.limit := by
  by_contra hzero
  obtain ⟨limit, input⟩ := limited
  obtain rfl : limit = 0 := Nat.eq_zero_of_not_pos hzero
  exact readLines_no_lf (by simp) r rest h

/-- A line gives an attribute only what it has room for. -/
theorem insertLine_fits {trimmed : List Char} {k v : String}
    (h : insertLine attributes trimmed k = some v) :
    attributes k = some v ∨
      (encodeUtf8 k.toList).length + (encodeUtf8 v.toList).length + 1 =
        (encodeUtf8 trimmed).length := by
  unfold insertLine at h
  cases hsplit : splitOnce '=' trimmed with
  | none =>
    rw [hsplit] at h
    exact .inl h
  | some kv =>
    obtain ⟨key, value⟩ := kv
    rw [hsplit] at h
    change Function.update attributes (String.ofList key) (some (String.ofList value)) k =
      some v at h
    obtain ⟨htrimmed, _⟩ := splitOnce_iff.mp hsplit
    by_cases hk : k = String.ofList key
    · right
      rw [hk, Function.update_self] at h
      have hv : String.ofList value = v := Option.some.inj h
      have hequals : (encodeUtf8 ['=']).length = 1 := rfl
      have hcons : encodeUtf8 ('=' :: value) = encodeUtf8 ['='] ++ encodeUtf8 value :=
        encodeUtf8_append ['='] value
      rw [hk, ← hv, String.toList_ofList, String.toList_ofList, htrimmed, encodeUtf8_append, hcons,
        List.length_append, List.length_append]
      omega
    · left
      rwa [Function.update_of_ne hk] at h

/-- Every attribute of a request came from a line inside the limit, with its equals sign,
its line feed and a blank line after it. -/
theorem readLines_attribute_fits (h : readLines attributes limited = (.ok (some r), rest))
    {k v : String} (hv : r.attributes k = some v) :
    attributes k = some v ∨
      (encodeUtf8 k.toList).length + (encodeUtf8 v.toList).length + 3 ≤ limited.limit := by
  induction hlimit : limited.limit using Nat.strong_induction_on
    generalizing attributes limited with
  | _ limit ih =>
  cases hread : readLine limited with
  | mk result after =>
    cases result with
    | error e =>
      rw [readLines_error hread] at h
      cases h
    | ok value =>
      obtain ⟨read, line⟩ := value
      obtain ⟨hlength, hafter⟩ := readLine_ok hread
      have hline : (encodeUtf8 line).length = read := by rw [hlength, readLine_ok_chunk hread]
      have hread_le : read ≤ limit := hlength ▸ hlimit ▸ limited.chunk_length_le
      have hleft : after.limit = limit - read := by rw [hafter, ← hlength, ← hlimit]
      rw [readLines_ok hread] at h
      split_ifs at h with hzero hcap hlf hcap hblank
      · cases h
      · cases h
      · cases h
      · cases h
      · cases h
        exact .inl hv
      · have hpos := readLines_some_pos h
        rcases ih after.limit (by omega) h rfl with hold | hfits
        · rcases insertLine_fits hold with hbefore | hthis
          · exact .inl hbefore
          · have hshorter := trimEndMatches_length (not_not.mp hlf)
            omega
        · omega

end Fits

theorem encodeUtf8_length (s : String) : (encodeUtf8 s.toList).length = s.utf8ByteSize := by
  have h : s.toList.utf8Encode = s.toByteArray := by simp
  have hsize := congrArg ByteArray.size h
  simpa [List.utf8Encode, encodeUtf8] using hsize

/-- The names that requests bring are those that trimming leaves as they are and that
fit between `sasl_username=` and a blank line. -/
theorem name_on_wire_iff {name : String} (hname : name ≠ "")
    (hline : '\r' ∉ name.toList ∧ '\n' ∉ name.toList) :
    (∃ bytes request rest, readFrom bytes = (.ok (some request), rest) ∧
      request.saslUsername = some name) ↔
      trim name = name ∧ name.utf8ByteSize + 16 ≤ maxRequestBytes := by
  have hkey : (encodeUtf8 "sasl_username".toList).length = 13 := rfl
  rw [← encodeUtf8_length]
  constructor
  · intro h
    obtain ⟨bytes, request, rest, hread, hsender⟩ := h
    obtain ⟨v, hv, rfl, _⟩ := saslUsername_eq_some_iff.mp hsender
    have hresult : (readLines (fun _ => none) ⟨maxRequestBytes, bytes⟩).1 = .ok (some request) :=
      congrArg Prod.fst hread
    have hfits := (readLines_attribute_fits (Prod.ext hresult rfl) hv).resolve_left (by simp)
    have hshorter := trim_length_le v
    dsimp only at hfits
    exact ⟨trim_trim v, by omega⟩
  · intro h
    obtain ⟨htrim, hfits⟩ := h
    have hpairs : ∀ pair ∈ [("sasl_username", name)], Encodable pair := by
      intro pair hpair
      obtain rfl := List.mem_singleton.mp hpair
      refine ⟨?_, hline.2, fun hlast => hline.1 (List.mem_of_getLast? hlast)⟩
      show '=' ∉ "sasl_username".toList ∧
        '\r' ∉ "sasl_username".toList ∧ '\n' ∉ "sasl_username".toList
      decide
    have hlength : (encodeRequest [("sasl_username", name)]).length =
        (encodeUtf8 name.toList).length + 16 := by
      have htext : block ([("sasl_username", name)].map pairLine) ++ [] ++ ['\n'] =
          "sasl_username=".toList ++ (name.toList ++ ['\n', '\n']) := by
        simp [block, pairLine]
      have hfront : (encodeUtf8 "sasl_username=".toList).length = 14 := rfl
      have hback : (encodeUtf8 ['\n', '\n']).length = 2 := rfl
      unfold encodeRequest requestBytes
      rw [htext, encodeUtf8_append, encodeUtf8_append, List.length_append, List.length_append]
      omega
    have hread := readFrom_encodeRequest hpairs (by omega) []
    exact ⟨_, _, _, hread, saslUsername_eq_some_iff.mpr ⟨name, by simp, htrim, hname⟩⟩

end Request

/-- Libraries and files as they are where every file holds one config with these rules. -/
def Loader.ofRules (rules : List RawSaslLimitRule) : Loader where
  readToString _ := some ""
  fromStr _ := some
    ⟨⟨"unix:///run/valkey.sock", 0, none, "postfix-ratelimitd"⟩,
      ⟨"/run/policy.sock", .defer, true, some "/run/control.sock"⟩, rules⟩
  intoConnectionInfo _ := some ⟨.unix "/run/valkey.sock", 0, none, none, .resp2, none, none⟩
  newRegex _ := none

/-! ## Requests on the control socket -/

/-- The response to a request for a status, once the query has ended. -/
def statusReply (id : Option Id) : Option (Except StatusError StatusResponse) → Option RpcResponse
  | some (.ok status) => some (success id status.toValue)
  | some (.error .panicked) => none
  | some (.error _) => some (failure id .internalError "error checking status")
  | none => none

/-- The line holds a request for the status of `v`. -/
def Codec.AsksFor (codec : Codec) (line : List Char) (v : String) (id : Option Id) : Prop :=
  ∃ value request, codec.fromStr (String.ofList line) = .ok value ∧
    codec.request value = .ok request ∧ request.method.text = limitsSaslMethod ∧
    codec.limitsSaslParams (request.params.getD .null) = .ok ⟨v⟩ ∧ request.id = id

theorem Codec.AsksFor.handleLine_eq {codec : Codec} {line : List Char} {v : String}
    {id : Option Id} (h : codec.AsksFor line v id) (moment : Moment) :
    handleLine codec line moment = statusReply id (queryStatus moment.state.limiter.keyPrefix v
      (moment.state.config.planFor v) moment.exchange) := by
  obtain ⟨value, request, hvalue, hrequest, hmethod, hparams, rfl⟩ := h
  have hother : ¬(limitsSaslMethod = pingMethod) := by decide
  unfold handleLine
  rw [hvalue]
  dsimp only
  rw [hrequest]
  unfold dispatch
  dsimp only
  rw [hmethod, if_neg hother, if_pos rfl, hparams]
  dsimp only
  generalize queryStatus moment.state.limiter.keyPrefix v (moment.state.config.planFor v)
    moment.exchange = result
  rcases result with _ | (e | status)
  · rfl
  · cases e <;> rfl
  · rfl

/-- The next reply of a connection is the status of `u`: a query by the plan for `u`, under the
keys of `u`, whatever the query meets. -/
def ReportedAs (codec : Codec) (state : RuntimeState) (reader : List UInt8) (id : Option Id)
    (u : String) : Prop :=
  ∀ exchange, nextReply codec ⟨state, exchange⟩ reader =
    statusReply id (queryStatus state.limiter.keyPrefix u (state.config.planFor u) exchange)

/-- A message is decided as one of `u`: by the plan for `u`, under the keys of `u`, whatever the
check meets. -/
def CheckedAs (state : RuntimeState) (request : Request) (u : String) : Prop :=
  ∀ n, wrongProtocolState request = false → request.recipientCount = some n →
    ∀ clock fault db,
      let r := (state.limiter.checkSasl u n (state.config.planFor u) none clock fault).run db
      handleRequest request state.config state.limiter clock fault db =
        (answer state.config (outcome r), left r)

/-- The status request on a connection and the messages with `v` on their line are one
sender's. -/
def SameSender (codec : Codec) (state : RuntimeState) (reader : List UInt8) (id : Option Id)
    (v : String) : Prop :=
  ∃ u, ReportedAs codec state reader id u ∧
    ∀ request : Request, request.attributes "sasl_username" = some v → CheckedAs state request u

theorem checkedAs_trim (state : RuntimeState) {request : Request} {v : String}
    (hv : request.attributes "sasl_username" = some v) (hblank : Request.trim v ≠ "") :
    CheckedAs state request (Request.trim v) := by
  intro n hstate hcount clock fault db
  have hname : request.saslUsername = some (Request.trim v) :=
    Request.saslUsername_eq_some_iff.mpr ⟨v, hv, rfl, hblank⟩
  unfold handleRequest
  rw [if_neg (by simp [hstate]), hname, hcount]
  rfl

/-! ## One sender by its status, one by its messages -/

section Determines
variable {keyPrefix u v : String} {plan plan' : CheckPlan}

theorem QueryState.sent_failed (e : StatusError) (exchange : Exchange) :
    (failed e).send keyPrefix u plan exchange = failed e := by
  cases exchange <;> rfl

/-- A count under the first key that is no 32-bit number fails the query. -/
theorem queryStatus_fails {b : ℕ} {sizes : List ℕ} (hsizes : plan.bucketSizes = b :: sizes)
    {clock : Clock} {db : Db} {count : ℤ} (hcount : 2 ^ 32 ≤ count)
    (hview : (db.view clock (saslKey keyPrefix u b)).entries = [(0, count)]) :
    queryStatus keyPrefix u plan (fun _ => some (clock, db)) =
      some (.error .unexpectedReturnType) := by
  have hfailed : ∀ n, QueryState.sent keyPrefix u plan (fun _ => some (clock, db)) (n + 2) =
      .failed .unexpectedReturnType := by
    intro n
    induction n with
    | zero =>
      have hparse : (db.view clock (saslKey keyPrefix u b)).entries.mapM parseField = none := by
        have hbad : parseField (0, count) = none := if_neg (by omega)
        rw [hview, List.mapM_cons, hbad]
        rfl
      show QueryState.step keyPrefix u plan clock db (.reading clock.secs []) = _
      unfold QueryState.step
      simp only [hsizes, List.length_nil, List.getElem?_cons_zero, hparse]
    | succ n ih =>
      show (QueryState.sent keyPrefix u plan _ (n + 2)).send keyPrefix u plan _ = _
      rw [ih, QueryState.sent_failed]
  unfold queryStatus
  rw [hsizes, if_neg (by simp), List.length_cons, hfailed]
  rfl

/-- A query that finds nothing under its keys is answered. -/
theorem queryStatus_answers (keyPrefix u : String) (hplan : plan.Built) {clock : Clock} {db : Db}
    (hviews : ∀ b, db.view clock (saslKey keyPrefix u b) = .empty) :
    ∃ status, queryStatus keyPrefix u plan (fun _ => some (clock, db)) = some (.ok status) := by
  by_cases hkeys : plan.bucketSizes = []
  · unfold queryStatus
    rw [hkeys]
    exact ⟨_, rfl⟩
  · rw [queryStatus_const]
    refine ⟨_, computeSaslStatus_eq hplan.wellFormed hkeys ?_⟩
    intro b _
    rw [hviews]
    exact ⟨sane_empty, by simp⟩

/-- Replies that never differ are about one sender, or no key is read for them. -/
theorem statusReply_determines (hplan' : plan'.Built) {id : Option Id}
    (h : ∀ exchange, statusReply id (queryStatus keyPrefix u plan exchange) =
      statusReply id (queryStatus keyPrefix v plan' exchange)) (hne : u ≠ v) :
    plan.bucketSizes = [] := by
  cases hsizes : plan.bucketSizes with
  | nil => rfl
  | cons b sizes =>
    let clock : Clock := ⟨0, by decide⟩
    let db : Db := Keyspace.write Keyspace.empty (saslKey keyPrefix u b)
      (some ⟨⟨[(0, 2 ^ 32)], by simp⟩, none⟩)
    have hview : (db.view clock (saslKey keyPrefix u b)).entries = [(0, 2 ^ 32)] := by
      simp [db, Db.view, Option.filter, Cell.expired]
    have hviews : ∀ b', db.view clock (saslKey keyPrefix v b') = .empty := by
      intro b'
      have hother : saslKey keyPrefix v b' ≠ saslKey keyPrefix u b :=
        fun hkey => hne (saslKey_inj hkey).2.1.symm
      rw [Db.view_congr (Keyspace.write_of_ne _ hother _), Db.view_empty]
    have hfails := queryStatus_fails hsizes (le_refl _) hview
    obtain ⟨status, hanswers⟩ := queryStatus_answers keyPrefix v hplan' hviews
    have hsame := h (fun _ => some (clock, db))
    rw [hfails, hanswers] at hsame
    cases hsame

/-- Checks that always leave the same behind are one sender's, or write no key. -/
theorem checkSasl_determines (hplan : plan.Built) (hplan' : plan'.Built)
    (h : ∀ clock db, left ((runCheck keyPrefix u ⟨clock, 0, plan⟩).run db) =
      left ((runCheck keyPrefix v ⟨clock, 0, plan'⟩).run db)) (hne : u ≠ v) :
    plan.bucketSizes = [] := by
  let clock : Clock := ⟨0, by decide⟩
  have hroom : ∀ (w : String) (q : CheckPlan),
      Room (saslKey keyPrefix w) clock q Keyspace.empty clock.secs 0 := by
    intro w q window _ b r _
    rw [Db.view_empty]
    simp
  have hsane : ∀ w b, Sane (Db.view Keyspace.empty clock (saslKey keyPrefix w b)) :=
    fun _ _ => sane_empty
  have hsame := h clock Keyspace.empty
  rcases run_runCheck keyPrefix u ⟨clock, 0, plan⟩ hplan.wellFormed (hsane u) with
    ⟨_, db, hrun, hdone, _⟩ | ⟨hfull, _⟩
  · rcases run_runCheck keyPrefix v ⟨clock, 0, plan'⟩ hplan'.wellFormed (hsane v) with
      ⟨_, db', hrun', _, hframe⟩ | ⟨hfull, _⟩
    · rw [hrun, hrun'] at hsame
      obtain rfl : db = db' := hsame
      rw [List.eq_nil_iff_forall_not_mem]
      intro b hb
      obtain ⟨r, hslot⟩ := hplan.wellFormed.slot_of_size hb
      have hwritten := hdone b r hslot
      rw [hframe _ (fun b' _ hkey => hne (saslKey_inj hkey).2.1)] at hwritten
      cases hwritten
    · exact absurd (hroom v plan') hfull
  · exact absurd (hroom u plan) hfull

end Determines

/-- A message for no recipient with `v` on its line. -/
def emptyMessage (v : String) : Request where
  attributes := fun key =>
    if key = "sasl_username" then some v else if key = "recipient_count" then some "0" else none

/-- Messages with `v` on their line are decided as those of one sender, or no key is written. -/
theorem CheckedAs.determines {state : RuntimeState} (hbuilt : state.config.Built) {u v : String}
    (hblank : Request.trim v ≠ "") (h : CheckedAs state (emptyMessage v) u) :
    Request.trim v = u ∨ (state.config.planFor (Request.trim v)).bucketSizes = [] ∧
      (state.config.planFor u).bucketSizes = [] := by
  have hcount : (emptyMessage v).recipientCount = some 0 := rfl
  have hstate : wrongProtocolState (emptyMessage v) = false := rfl
  have htrim : CheckedAs state (emptyMessage v) (Request.trim v) :=
    checkedAs_trim state rfl hblank
  have hsame : ∀ clock db,
      left ((runCheck state.limiter.keyPrefix (Request.trim v)
        ⟨clock, 0, state.config.planFor (Request.trim v)⟩).run db) =
      left ((runCheck state.limiter.keyPrefix u ⟨clock, 0, state.config.planFor u⟩).run db) := by
    intro clock db
    have hone := htrim 0 hstate hcount clock .none db
    have htwo := h 0 hstate hcount clock .none db
    exact (Prod.ext_iff.mp (hone.symm.trans htwo)).2
  by_cases hname : Request.trim v = u
  · exact .inl hname
  · exact .inr ⟨checkSasl_determines (hbuilt.planFor _) (hbuilt.planFor _) hsame hname,
      checkSasl_determines (hbuilt.planFor _) (hbuilt.planFor _)
        (fun clock db => (hsame clock db).symm) (Ne.symm hname)⟩

/-- A status request and the messages with the same name on their line are one sender's exactly
when the request fits into a line of the control socket and trimming leaves the name as it is,
or changes it where no key is read for either name. -/
theorem sameSender_iff {codec : Codec} {state : RuntimeState} (hbuilt : state.config.Built)
    {line : List Char} (hline : '\n' ∉ line) {v : String} {id : Option Id}
    (hasks : codec.AsksFor (Request.stripped line) v id) (hblank : Request.trim v ≠ "")
    (tail : List UInt8) :
    SameSender codec state (encodeUtf8 line ++ lf :: tail) id v ↔
      (encodeUtf8 line).length + 1 ≤ maxControlRequestBytes ∧
        (Request.trim v = v ∨ (state.config.planFor v).bucketSizes = [] ∧
          (state.config.planFor (Request.trim v)).bucketSizes = []) := by
  constructor
  · intro h
    obtain ⟨u, hreported, hchecked⟩ := h
    have hfits : (encodeUtf8 line).length + 1 ≤ maxControlRequestBytes := by
      by_contra hlong
      let clock : Clock := ⟨0, by decide⟩
      have hviews : ∀ b, Db.view Keyspace.empty clock (saslKey state.limiter.keyPrefix u b) =
          .empty := fun b => Db.view_empty _ _
      obtain ⟨status, hstatus⟩ := queryStatus_answers state.limiter.keyPrefix u
        (hbuilt.planFor u) hviews
      have hreply := hreported (fun _ => some (clock, Keyspace.empty))
      rw [hstatus] at hreply
      obtain ⟨message, hfailure⟩ := nextReply_long hline (by omega) hreply
      exact failure_payload_ne_ok _ _ _ _ (congrArg RpcResponse.payload hfailure).symm
    have hreplies : ∀ exchange,
        statusReply id (queryStatus state.limiter.keyPrefix v (state.config.planFor v) exchange) =
        statusReply id
          (queryStatus state.limiter.keyPrefix u (state.config.planFor u) exchange) := by
      intro exchange
      have hreply := hreported exchange
      rw [nextReply_fits hline hfits, hasks.handleLine_eq] at hreply
      exact hreply
    refine ⟨hfits, ?_⟩
    have hmessages := (hchecked (emptyMessage v) rfl).determines hbuilt hblank
    by_cases hname : v = u
    · rw [← hname] at hmessages
      exact hmessages.imp (fun htrim => htrim) And.symm
    · have hnone := statusReply_determines (hbuilt.planFor u) hreplies hname
      have hnone' := statusReply_determines (hbuilt.planFor v)
        (fun exchange => (hreplies exchange).symm) (Ne.symm hname)
      rcases hmessages with htrim | ⟨htrim, _⟩
      · exact .inr ⟨hnone, htrim ▸ hnone'⟩
      · exact .inr ⟨hnone, htrim⟩
  · intro h
    obtain ⟨hfits, hsame⟩ := h
    refine ⟨Request.trim v, ?_, fun request hv => checkedAs_trim state hv hblank⟩
    intro exchange
    rw [nextReply_fits hline hfits, hasks.handleLine_eq]
    rcases hsame with htrim | ⟨hnone, hnone'⟩
    · rw [htrim]
    · unfold queryStatus
      dsimp only
      rw [hnone, hnone']
      rfl

/-- A loaded config has no key for a name exactly when the rule that governs it says so. -/
theorem Config.LoadedFrom.no_keys_iff {newRegex : String → Option (String → Bool)}
    {config : Config} {raw : List RawSaslLimitRule} (h : config.LoadedFrom newRegex raw)
    (v : String) : (config.planFor v).bucketSizes = [] ↔
      ∃ rule, RawSaslLimitRule.governing newRegex raw v = some rule ∧
        rule.unrestricted = some true := by
  obtain ⟨rule, hrule, hgoverns, hplan⟩ := h.planFor v
  have hempty := (h.sound rule hrule).plan_empty_iff
  rw [hplan, hempty]
  constructor
  · exact fun hflag => ⟨rule, hgoverns, hflag⟩
  · intro hgoverned
    obtain ⟨rule', hgoverns', hflag⟩ := hgoverned
    obtain rfl := Option.some.inj (hgoverns.symm.trans hgoverns')
    exact hflag

/-- The status request for a name is answered by the plan and under the keys by which the
messages with that name on their line are checked, exactly when the request fits into a line of
the control socket and trimming leaves the name as it is, or the rules for it and for what
trimming leaves of it are both unrestricted. -/
theorem status_means_enforced_sender (loader : Loader) (path text : String) (raw : RawConfig)
    (config : Config) (htext : loader.readToString path = some text)
    (hraw : loader.fromStr text = some raw) (hload : Config.load loader path = some (.ok config))
    (limiter : Limiter) (connectionInfo : ConnectionInfo) (v : String)
    (hblank : Request.trim v ≠ "") (codec : Codec) (line : List Char) (hline : '\n' ∉ line)
    (id : Option Id) (hasks : codec.AsksFor (Request.stripped line) v id) (tail : List UInt8) :
    (∀ pairs rest, (∀ pair ∈ pairs, Request.Encodable pair) →
      (Request.encodeRequest pairs).length ≤ maxRequestBytes →
      pairs.reverse.lookup "sasl_username" = some v →
      ∃ request,
        Request.readFrom (Request.encodeRequest pairs ++ rest) = (.ok (some request), rest) ∧
        request.attributes "sasl_username" = some v) ∧
    (SameSender codec ⟨config, limiter, connectionInfo⟩ (encodeUtf8 line ++ lf :: tail) id v ↔
      (encodeUtf8 line).length + 1 ≤ maxControlRequestBytes ∧
        (Request.trim v = v ∨ ∃ rule rule',
          RawSaslLimitRule.governing loader.newRegex raw.saslLimits v = some rule ∧
          RawSaslLimitRule.governing loader.newRegex raw.saslLimits (Request.trim v) = some rule' ∧
          rule.unrestricted = some true ∧ rule'.unrestricted = some true)) := by
  have hfrom : config.LoadedFrom loader.newRegex raw.saslLimits := by
    rw [Config.load_eq htext hraw] at hload
    exact RawConfig.validate_loadedFrom hload
  constructor
  · intro pairs rest hpairs hfits hlast
    exact ⟨_, Request.readFrom_encodeRequest hpairs hfits rest, hlast⟩
  · rw [sameSender_iff hfrom.built hline hasks hblank tail]
    dsimp only
    rw [hfrom.no_keys_iff, hfrom.no_keys_iff]
    apply and_congr_right'
    apply or_congr_right
    constructor
    · intro h
      obtain ⟨⟨rule, hgoverns, hflag⟩, rule', hgoverns', hflag'⟩ := h
      exact ⟨rule, rule', hgoverns, hgoverns', hflag, hflag'⟩
    · intro h
      obtain ⟨rule, rule', hgoverns, hgoverns', hflag, hflag'⟩ := h
      exact ⟨⟨rule, hgoverns, hflag⟩, rule', hgoverns', hflag'⟩

/-- A request for the status of a user as the control tool writes it, with the value in it. -/
def statusLine (username : String) : List Char :=
  ("\x7b\"jsonrpc\":\"2.0\",\"method\":\"limits.sasl\",\"params\":\x7b\"username\":\"" ++
    username ++ "\"\x7d,\"id\":1\x7d").toList

def statusValue (username : String) : JsonValue :=
  .object [("id", .number (.posInt 1)), ("jsonrpc", .string "2.0"),
    ("method", .string "limits.sasl"), ("params", .object [("username", .string username)])]

theorem memberCodec_asksFor (username : String) (line : List Char) :
    (memberCodec (statusValue username)).AsksFor line username (some (.num 1)) :=
  ⟨_, _, rfl, rfl, rfl, rfl, rfl⟩

/-- The sender `alice` by its own name. -/
theorem status_means_enforced_sender_plain :
    let loader := Loader.ofRules [.username "alice" (some [⟨5, .fromSecs 3600⟩]) none,
      .default none (some true)]
    ∃ config, Config.load loader "/etc/postfix-ratelimitd/config.toml" = some (.ok config) ∧
      (∃ request, Request.readFrom (encodeUtf8 "sasl_username=alice\n\n".toList) =
          (.ok (some request), []) ∧ request.attributes "sasl_username" = some "alice") ∧
      SameSender (memberCodec (statusValue "alice"))
        ⟨config, ⟨config.redisKeyPrefix⟩, config.redisConnectionInfo⟩
        (encodeUtf8 (statusLine "alice") ++ [lf]) (some (.num 1)) "alice" := by
  intro loader
  have hpairs : ∀ pair ∈ [("sasl_username", "alice")], Request.Encodable pair := by
    intro pair hpair
    obtain rfl := List.mem_singleton.mp hpair
    exact ⟨by decide, by decide⟩
  obtain ⟨hcarried, hsame⟩ := status_means_enforced_sender loader
    "/etc/postfix-ratelimitd/config.toml" "" _ _ rfl rfl rfl ⟨"postfix-ratelimitd"⟩
    ⟨.unix "/run/valkey.sock", 0, none, none, .resp2, none, none⟩ "alice" (by decide) _
    (statusLine "alice") (by decide) _ (memberCodec_asksFor "alice" _) []
  exact ⟨_, rfl, hcarried [("sasl_username", "alice")] [] hpairs (by decide) rfl,
    hsame.mpr ⟨by decide, .inl (by decide)⟩⟩

/-- A message with a blank before the name on its line is held to the 5 of `alice`, and the
status request for the name on the line is told that nothing limits the sender. -/
theorem status_of_another_sender :
    let loader := Loader.ofRules [.username "alice" (some [⟨5, .fromSecs 3600⟩]) none,
      .default none (some true)]
    let codec := memberCodec (statusValue " alice")
    let reader := encodeUtf8 (statusLine " alice") ++ [lf]
    ∃ config, Config.load loader "/etc/postfix-ratelimitd/config.toml" = some (.ok config) ∧
      let state : RuntimeState := ⟨config, ⟨config.redisKeyPrefix⟩, config.redisConnectionInfo⟩
      (∃ request, Request.readFrom
          (encodeUtf8 "sasl_username= alice\nrecipient_count=6\n\n".toList) =
            (.ok (some request), []) ∧
        (handleRequest request state.config state.limiter ⟨0, by decide⟩ .none
          Keyspace.empty).1.action = actionRateLimited) ∧
      (∀ exchange, nextReply codec ⟨state, exchange⟩ reader =
        some (success (some (.num 1)) (StatusResponse.unrestricted true).toValue)) ∧
      ¬SameSender codec state reader (some (.num 1)) " alice" := by
  intro loader codec reader
  have hpairs : ∀ pair ∈ [("sasl_username", " alice"), ("recipient_count", "6")],
      Request.Encodable pair := by
    intro pair hpair
    rcases List.mem_cons.mp hpair with rfl | hpair
    · exact ⟨by decide, by decide⟩
    · obtain rfl := List.mem_singleton.mp hpair
      exact ⟨by decide, by decide⟩
  have hread := Request.readFrom_encodeRequest hpairs (by decide) []
  obtain ⟨config, hload, hother, halice, hrefused⟩ : ∃ config,
      Config.load loader "/etc/postfix-ratelimitd/config.toml" = some (.ok config) ∧
        config.planFor " alice" = CheckPlan.new [] ∧
        config.planFor "alice" = CheckPlan.new [⟨5, .fromSecs 3600⟩] ∧
        (handleRequest
          ⟨fun k => [("sasl_username", " alice"), ("recipient_count", "6")].reverse.lookup k⟩
          config ⟨config.redisKeyPrefix⟩ ⟨0, by decide⟩ .none Keyspace.empty).1.action =
            actionRateLimited := ⟨_, rfl, rfl, rfl, by decide +kernel⟩
  have hbuilt : config.Built := by
    rw [Config.load_eq rfl rfl] at hload
    exact (RawConfig.validate_loadedFrom hload).built
  have hfits : (encodeUtf8 (statusLine " alice")).length + 1 ≤ maxControlRequestBytes := by decide
  refine ⟨config, hload, ⟨_, hread, hrefused⟩, ?_, ?_⟩
  · intro exchange
    rw [nextReply_fits (by decide) hfits, (memberCodec_asksFor " alice" _).handleLine_eq]
    dsimp only
    rw [hother]
    rfl
  · rw [sameSender_iff hbuilt (by decide) (memberCodec_asksFor " alice" _) (by decide) []]
    have htrim : Request.trim " alice" = "alice" := by decide
    have hkeys : (CheckPlan.new [⟨5, .fromSecs 3600⟩]).bucketSizes ≠ [] :=
      CheckPlan.new_bucketSizes_ne_nil (List.mem_singleton_self _)
    dsimp only
    rw [htrim, halice]
    intro h
    rcases h.2 with hname | ⟨_, hnone⟩
    · exact absurd hname (by decide)
    · exact hkeys hnone

/-! ## Rules that no request meets -/

theorem Config.planFor_of_first {config : Config} {i : ℕ} {rule : SaslLimitRule} {u : String}
    (hrule : config.saslLimits[i]? = some rule) (hmatch : rule.matches u = true)
    (hfirst : ∀ (j : ℕ) earlier, j < i → config.saslLimits[j]? = some earlier →
      earlier.matches u = false) : config.planFor u = rule.plan := by
  have hfind : config.saslLimits.find? (fun rule => rule.matches u) = some rule := by
    obtain ⟨hi, hget⟩ := List.getElem?_eq_some_iff.mp hrule
    apply List.find?_eq_some_iff_getElem.mpr
    refine ⟨hmatch, i, hi, hget, ?_⟩
    intro j hj
    have hno := hfirst j _ hj (List.getElem?_eq_getElem (hj.trans hi))
    simp [hno]
  unfold Config.planFor
  rw [hfind]

/-- A request meets a username rule exactly when trimming leaves the rule's name as it is
and a request has room for it. -/
theorem username_rule_reachable (loader : Loader) (path : String) (config : Config)
    (hload : Config.load loader path = some (.ok config)) (i : ℕ) (rule : SaslLimitRule)
    (name : String) (hrule : config.saslLimits[i]? = some rule)
    (hname : rule.matcher = .username name) (hline : '\r' ∉ name.toList ∧ '\n' ∉ name.toList) :
    (∃ bytes request rest u, Request.readFrom bytes = (.ok (some request), rest) ∧
      request.saslUsername = some u ∧ rule.matches u = true ∧
      ((∀ (j : ℕ) earlier, j < i → config.saslLimits[j]? = some earlier →
        earlier.matches u = false) → config.planFor u = rule.plan)) ↔
      Request.trim name = name ∧ name.utf8ByteSize + 16 ≤ maxRequestBytes := by
  obtain ⟨raw, hfrom⟩ := Config.load_loadedFrom hload
  have hne : name ≠ "" := hfrom.name_ne_empty (List.mem_of_getElem? hrule) hname
  have hmatches : ∀ u, rule.matches u = true ↔ name = u := by
    intro u
    unfold SaslLimitRule.matches
    rw [hname]
    exact beq_iff_eq
  rw [← Request.name_on_wire_iff hne hline]
  constructor
  · intro h
    obtain ⟨bytes, request, rest, u, hread, hu, hmatch, _⟩ := h
    obtain rfl := (hmatches u).mp hmatch
    exact ⟨bytes, request, rest, hread, hu⟩
  · intro h
    obtain ⟨bytes, request, rest, hread, hu⟩ := h
    have hmatch := (hmatches name).mpr rfl
    exact ⟨bytes, request, rest, name, hread, hu, hmatch, Config.planFor_of_first hrule hmatch⟩

theorem username_rule_reachable_plain :
    let loader := Loader.ofRules [.default none (some true),
      .username "alice" (some [⟨5, .fromSecs 3600⟩]) none]
    ∃ config bytes request rest u,
      Config.load loader "/etc/postfix-ratelimitd/config.toml" = some (.ok config) ∧
      Request.readFrom bytes = (.ok (some request), rest) ∧ request.saslUsername = some u ∧
      SaslLimitRule.matches ⟨.username "alice", CheckPlan.new [⟨5, .fromSecs 3600⟩]⟩ u = true ∧
      config.planFor u = CheckPlan.new [⟨5, .fromSecs 3600⟩] := by
  intro loader
  obtain ⟨bytes, request, rest, u, hread, hu, hmatch, hplan⟩ := (username_rule_reachable loader
    "/etc/postfix-ratelimitd/config.toml" _ rfl 0 _ "alice" rfl rfl (by decide)).mpr (by decide)
  exact ⟨_, bytes, request, rest, u, rfl, hread, hu, hmatch,
    hplan (fun j earlier hj => absurd hj (Nat.not_lt_zero j))⟩

/-- A rule for a name with a blank before it is loaded, and no request meets it. -/
theorem username_rule_dead :
    let loader := Loader.ofRules [.username " alice" (some [⟨5, .fromSecs 3600⟩]) none,
      .default none (some true)]
    ∃ config rule, Config.load loader "/etc/postfix-ratelimitd/config.toml" = some (.ok config) ∧
      config.saslLimits[0]? = some rule ∧ rule.matcher = .username " alice" ∧
      '\r' ∉ " alice".toList ∧ '\n' ∉ " alice".toList ∧
      ∀ bytes request rest u, Request.readFrom bytes = (.ok (some request), rest) →
        request.saslUsername = some u → rule.matches u = false := by
  intro loader
  refine ⟨_, _, rfl, rfl, rfl, by decide, by decide, ?_⟩
  intro bytes request rest u hread hu
  by_contra hmatch
  have hname : " alice" = u := by simpa [SaslLimitRule.matches] using hmatch
  have hwire := (Request.name_on_wire_iff (by decide) (by decide)).mp
    ⟨bytes, request, rest, hread, hname ▸ hu⟩
  exact absurd hwire.1 (by decide)

end PostfixRatelimitd
