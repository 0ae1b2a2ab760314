import PostfixRatelimitd.Control
import PostfixRatelimitd.PolicyGrammar

/-!
# Control connections

`handleConnection` reads request lines, each under a cap of its own, and answers one
after another. Past the lines that fit, the input ends, or there is a line that is too
long or cut short: it gets an error reply, except where the cap falls inside one of its
characters. The reader then fails before the daemon knows that the line is too long.
-/
namespace PostfixRatelimitd
open Request (block block_cons stripped trimEndMatches isLineEnd trimEndMatches_line)

def maxControlRequestBytes : ℕ := 64 * 1024

/-- What a connection wrote, and what it left unread. -/
structure Connection where
  written : List UInt8
  unread : List UInt8
  deriving DecidableEq, Repr

def writeResponse (codec : Codec) (response : RpcResponse) : List UInt8 :=
  encodeUtf8 (codec.toString response).toList ++ [lf]

/-- Replies to one request line after another until the input ends or a line is not one.
The line with index `k` is handled at `moments k`. -/
def handleConnection (codec : Codec) (moments : ℕ → Moment) (reader : List UInt8) : Connection :=
  match _hread : readLine ⟨maxControlRequestBytes, reader⟩ with
  | (.error _, rest) => ⟨[], rest.input⟩
  | (.ok (read, line), rest) =>
    if _hzero : read = 0 then ⟨[], rest.input⟩
    else if line.getLast? ≠ some '\n' then
      let message := if rest.limit = 0 then "control request exceeded max size"
        else "connection closed mid-request"
      ⟨writeResponse codec (failure none .invalidRequest message), rest.input⟩
    else
      match handleLine codec (trimEndMatches isLineEnd line) (moments 0) with
      | none => ⟨[], rest.input⟩
      | some response =>
        let later := handleConnection codec (fun k => moments (k + 1)) rest.input
        ⟨writeResponse codec response ++ later.written, later.unread⟩
termination_by reader.length
decreasing_by
  obtain ⟨rfl, hrest⟩ := readLine_ok _hread
  have hread := Limited.chunk_length_le_input ⟨maxControlRequestBytes, reader⟩
  rw [hrest]
  dsimp only at hread ⊢
  rw [List.length_drop]
  omega

/-! ## What a stream asks for -/

/-- The text consists of the lines that fit under the cap, and of what follows them. -/
structure Framed (text : List Char) (lines : List (List Char)) (rest : List Char) : Prop where
  text_eq : text = block lines ++ rest
  lines : ∀ line ∈ lines, '\n' ∉ line ∧ (encodeUtf8 line).length + 1 ≤ maxControlRequestBytes
  stops : ∀ line after, '\n' ∉ line → rest = line ++ '\n' :: after →
    maxControlRequestBytes < (encodeUtf8 line).length + 1

/-- One response line for every line, in order, each made of its own line and the moment
at which it is handled; one more, an invalid request without an id, for what follows them;
and no byte past the cap is read. -/
def AnswersEveryLine (codec : Codec) (moments : ℕ → Moment) (lines : List (List Char))
    (rest : List Char) (connection : Connection) : Prop :=
  ∃ responses last : List RpcResponse,
    lines.mapIdx (fun k line => handleLine codec (stripped line) (moments k)) =
      responses.map some ∧
    (rest = [] → last = []) ∧
    (rest ≠ [] → ∃ message, last = [failure none .invalidRequest message]) ∧
    (∀ response ∈ responses ++ last, '\n' ∉ (codec.toString response).toList) ∧
    connection.written =
      encodeUtf8 (block ((responses ++ last).map (fun r => (codec.toString r).toList))) ∧
    connection.unread = (encodeUtf8 rest).drop maxControlRequestBytes

/-- No character of the text straddles the cap. -/
def CapOnBoundary (text : List Char) : Prop :=
  (encodeUtf8 text).length ≤ maxControlRequestBytes ∨
    ∃ head, head <+: text ∧ (encodeUtf8 head).length = maxControlRequestBytes

/-- A text whose first line is too long has no lines that fit. -/
theorem framed_of_long_line {text line after : List Char} (hline : '\n' ∉ line)
    (hlong : maxControlRequestBytes < (encodeUtf8 line).length + 1)
    (htext : text = line ++ '\n' :: after) : Framed text [] text where
  text_eq := rfl
  lines := by simp
  stops line' after' hline' hcut := by
    obtain ⟨rfl, rfl⟩ := cut_unique hline hline' (htext.symm.trans hcut)
    exact hlong

theorem framed_exists (text : List Char) : ∃ lines rest, Framed text lines rest := by
  induction hlength : text.length using Nat.strong_induction_on generalizing text with
  | _ length ih =>
  rcases notMem_or_cut '\n' text with hno | ⟨line, after, hline, rfl⟩
  · refine ⟨[], text, rfl, by simp, ?_⟩
    intro line after _ hcut
    rw [hcut] at hno
    exact absurd (by simp) hno
  · rcases Nat.lt_or_ge maxControlRequestBytes ((encodeUtf8 line).length + 1) with hlong | hfits
    · exact ⟨[], _, framed_of_long_line hline hlong rfl⟩
    · obtain ⟨lines, rest, htext, hlines, hstops⟩ := ih after.length (by simp [← hlength]; omega)
        after rfl
      exact ⟨line :: lines, rest, by rw [htext, block_cons]; simp,
        List.forall_mem_cons.mpr ⟨⟨hline, hfits⟩, hlines⟩, hstops⟩

/-- A character that begins before the cap and ends after it. -/
theorem not_capOnBoundary {before after : List Char} {c : Char}
    (hbegins : (encodeUtf8 before).length < maxControlRequestBytes)
    (hends : maxControlRequestBytes < (encodeUtf8 (before ++ [c])).length) :
    ¬CapOnBoundary (before ++ c :: after) := by
  rw [encodeUtf8_append, List.length_append] at hends
  rintro (hshort | ⟨head, ⟨tail, htail⟩, hhead⟩)
  · have hcons : encodeUtf8 (c :: after) = encodeUtf8 [c] ++ encodeUtf8 after :=
      encodeUtf8_append [c] after
    rw [encodeUtf8_append, hcons, List.length_append, List.length_append] at hshort
    omega
  · rcases List.append_eq_append_iff.mp htail with ⟨mid, rfl, _⟩ | ⟨mid, rfl, hafter⟩
    · rw [encodeUtf8_append, List.length_append] at hbegins
      omega
    · rw [encodeUtf8_append, List.length_append] at hhead
      cases mid with
      | nil =>
        rw [encodeUtf8_nil, List.length_nil] at hhead
        omega
      | cons d mid =>
        obtain ⟨rfl, _⟩ := List.cons.inj hafter
        have hcons : encodeUtf8 (c :: mid) = encodeUtf8 [c] ++ encodeUtf8 mid :=
          encodeUtf8_append [c] mid
        rw [hcons, List.length_append] at hhead
        omega

namespace Framed
variable {text rest : List Char} {lines : List (List Char)}

theorem tail {line : List Char} (h : Framed text (line :: lines) rest) :
    Framed (block lines ++ rest) lines rest :=
  ⟨rfl, fun l hl => h.lines l (List.mem_cons_of_mem _ hl), h.stops⟩

/-- What follows the lines has no line feed under the cap. -/
theorem rest_capped (h : Framed text lines rest) :
    lf ∉ (encodeUtf8 rest).take maxControlRequestBytes := by
  intro hmem
  rcases notMem_or_cut '\n' rest with hno | ⟨line, after, hline, rfl⟩
  · exact hno (lf_mem_encodeUtf8.mp (List.mem_of_mem_take hmem))
  · have hlong := h.stops line after hline rfl
    rw [encodeUtf8_append, List.take_append_of_le_length (by omega)] at hmem
    exact hline (lf_mem_encodeUtf8.mp (List.mem_of_mem_take hmem))

end Framed

/-! ## What a connection does -/

section Connection
variable {codec : Codec} {moments : ℕ → Moment} {reader : List UInt8}

theorem handleConnection_error {e : IoError} {left : Limited}
    (h : readLine ⟨maxControlRequestBytes, reader⟩ = (.error e, left)) :
    handleConnection codec moments reader = ⟨[], left.input⟩ := by
  rw [handleConnection]
  split
  · rename_i heq
    rw [h] at heq
    cases heq
    rfl
  · rename_i heq
    rw [h] at heq
    cases heq

theorem handleConnection_ok {read : ℕ} {line : List Char} {left : Limited}
    (h : readLine ⟨maxControlRequestBytes, reader⟩ = (.ok (read, line), left)) :
    handleConnection codec moments reader =
      if read = 0 then ⟨[], left.input⟩
      else if line.getLast? ≠ some '\n' then
        ⟨writeResponse codec (failure none .invalidRequest
          (if left.limit = 0 then "control request exceeded max size"
          else "connection closed mid-request")), left.input⟩
      else
        match handleLine codec (trimEndMatches isLineEnd line) (moments 0) with
        | none => ⟨[], left.input⟩
        | some response =>
          let later := handleConnection codec (fun k => moments (k + 1)) left.input
          ⟨writeResponse codec response ++ later.written, later.unread⟩ := by
  rw [handleConnection]
  split
  · rename_i heq
    rw [h] at heq
    cases heq
  · rename_i heq
    rw [h] at heq
    cases heq
    rfl

/-- A line that fits is answered, and the connection goes on after it. -/
theorem handleConnection_fits {line : List Char} {response : RpcResponse} (hline : '\n' ∉ line)
    (hfits : (encodeUtf8 line).length + 1 ≤ maxControlRequestBytes)
    (hresponse : handleLine codec (stripped line) (moments 0) = some response) :
    handleConnection codec moments (encodeUtf8 line ++ lf :: reader) =
      ⟨writeResponse codec response ++
        (handleConnection codec (fun k => moments (k + 1)) reader).written,
        (handleConnection codec (fun k => moments (k + 1)) reader).unread⟩ := by
  rw [handleConnection_ok (readLine_fits hline hfits), if_neg (by omega), if_neg (by simp),
    trimEndMatches_line hline, hresponse]

/-- The reply that one turn of the loop makes. -/
def nextReply (codec : Codec) (moment : Moment) (reader : List UInt8) : Option RpcResponse :=
  match readLine ⟨maxControlRequestBytes, reader⟩ with
  | (.error _, _) => none
  | (.ok (read, line), rest) =>
    if read = 0 then none
    else if line.getLast? ≠ some '\n' then
      some (failure none .invalidRequest
        (if rest.limit = 0 then "control request exceeded max size"
        else "connection closed mid-request"))
    else handleLine codec (trimEndMatches isLineEnd line) moment

/-- A connection writes the reply to its first line before anything else, or nothing. -/
theorem handleConnection_nextReply (codec : Codec) (moments : ℕ → Moment) (reader : List UInt8) :
    match nextReply codec (moments 0) reader with
    | none => (handleConnection codec moments reader).written = []
    | some response =>
      writeResponse codec response <+: (handleConnection codec moments reader).written := by
  unfold nextReply
  rcases hread : readLine ⟨maxControlRequestBytes, reader⟩ with ⟨result, left⟩
  cases result with
  | error e => rw [handleConnection_error hread]
  | ok read =>
    obtain ⟨read, line⟩ := read
    rw [handleConnection_ok hread]
    by_cases hzero : read = 0
    · simp only [if_pos hzero]
    · by_cases hlf : line.getLast? ≠ some '\n'
      · simp only [if_neg hzero, if_pos hlf]
        exact List.prefix_rfl
      · simp only [if_neg hzero, if_neg hlf]
        cases handleLine codec (trimEndMatches isLineEnd line) (moments 0) with
        | none => rfl
        | some response => exact List.prefix_append _ _

/-- A line that fits is handed on. -/
theorem nextReply_fits {moment : Moment} {line : List Char} (hline : '\n' ∉ line)
    (hfits : (encodeUtf8 line).length + 1 ≤ maxControlRequestBytes) :
    nextReply codec moment (encodeUtf8 line ++ lf :: reader) =
      handleLine codec (stripped line) moment := by
  unfold nextReply
  rw [readLine_fits hline hfits]
  dsimp only
  rw [if_neg (by omega), if_neg (by simp), trimEndMatches_line hline]

/-- A line that does not fit is no request. -/
theorem nextReply_long {moment : Moment} {line : List Char} (hline : '\n' ∉ line)
    (hlong : maxControlRequestBytes < (encodeUtf8 line).length + 1) {response : RpcResponse}
    (h : nextReply codec moment (encodeUtf8 line ++ lf :: reader) = some response) :
    ∃ message, response = failure none .invalidRequest message := by
  have hcapped : lf ∉ (encodeUtf8 line ++ lf :: reader).take maxControlRequestBytes := by
    intro hmem
    rw [List.take_append_of_le_length (by omega)] at hmem
    exact hline (lf_mem_encodeUtf8.mp (List.mem_of_mem_take hmem))
  have hread := readLine_capped hcapped (by rw [List.length_append, List.length_cons]; omega)
  unfold nextReply at h
  rw [hread] at h
  cases hdecode : decodeUtf8 ((encodeUtf8 line ++ lf :: reader).take maxControlRequestBytes) with
  | none =>
    rw [hdecode] at h
    cases h
  | some head =>
    have hno : '\n' ∉ head := by
      rw [encode_of_decode hdecode] at hcapped
      exact fun hmem => hcapped (lf_mem_encodeUtf8.mpr hmem)
    rw [hdecode] at h
    dsimp only at h
    rw [if_neg (by decide), if_pos (getLast?_ne_lf hno)] at h
    exact ⟨_, (Option.some.inj h).symm⟩

/-- The connection closes without a reply at the end of the input. -/
theorem handleConnection_nil : handleConnection codec moments [] = ⟨[], []⟩ := by
  rw [handleConnection_ok (readLine_nil maxControlRequestBytes)]
  rfl

/-- What follows the lines that fit gets an error reply, or none if the cap falls inside
one of its characters. -/
theorem handleConnection_rest (codec : Codec) (moments : ℕ → Moment) {rest : List Char}
    (hrest : rest ≠ [])
    (hcapped : lf ∉ (encodeUtf8 rest).take maxControlRequestBytes) :
    (CapOnBoundary rest → ∃ message, handleConnection codec moments (encodeUtf8 rest) =
      ⟨writeResponse codec (failure none .invalidRequest message),
        (encodeUtf8 rest).drop maxControlRequestBytes⟩) ∧
    (¬CapOnBoundary rest → handleConnection codec moments (encodeUtf8 rest) =
      ⟨[], (encodeUtf8 rest).drop maxControlRequestBytes⟩) := by
  rcases Nat.lt_or_ge maxControlRequestBytes (encodeUtf8 rest).length with hlong | hshort
  · have hread := readLine_capped hcapped hlong.le
    cases hdecode : decodeUtf8 ((encodeUtf8 rest).take maxControlRequestBytes) with
    | none =>
      rw [hdecode] at hread
      constructor
      · rintro (hshort | ⟨head, hhead⟩)
        · omega
        · rw [(decode_take_iff hlong.le).mpr hhead] at hdecode
          cases hdecode
      · exact fun _ => handleConnection_error hread
    | some head =>
      have hno : '\n' ∉ head := by
        rw [encode_of_decode hdecode] at hcapped
        exact fun hmem => hcapped (lf_mem_encodeUtf8.mpr hmem)
      rw [hdecode] at hread
      constructor
      · refine fun _ => ⟨"control request exceeded max size", ?_⟩
        rw [handleConnection_ok hread, if_neg (by decide), if_pos (getLast?_ne_lf hno)]
        rfl
      · exact fun hstraddled =>
          absurd (.inr ⟨head, (decode_take_iff hlong.le).mp hdecode⟩) hstraddled
  · have hno : '\n' ∉ rest := by
      rw [List.take_of_length_le hshort] at hcapped
      exact fun hmem => hcapped (lf_mem_encodeUtf8.mpr hmem)
    have hsome : ¬((encodeUtf8 rest).length = 0) := by
      rw [List.length_eq_zero_iff, encodeUtf8_eq_nil]
      exact hrest
    constructor
    · intro _
      rw [handleConnection_ok (readLine_tail hno hshort), if_neg hsome, if_pos (getLast?_ne_lf hno),
        List.drop_eq_nil_of_le hshort]
      exact ⟨_, rfl⟩
    · exact fun hstraddled => absurd (.inl hshort) hstraddled

/-- The lines that fit are answered in order, and the connection goes on with the rest. -/
theorem handleConnection_framed (codec : Codec) {text rest : List Char} {lines : List (List Char)}
    (h : Framed text lines rest) (hbuilt : ∀ k, (moments k).state.config.Built) :
    ∃ responses : List RpcResponse,
      lines.mapIdx (fun k line => handleLine codec (stripped line) (moments k)) =
        responses.map some ∧
      let later := handleConnection codec (fun k => moments (k + lines.length)) (encodeUtf8 rest)
      handleConnection codec moments (encodeUtf8 text) =
        ⟨responses.flatMap (writeResponse codec) ++ later.written, later.unread⟩ := by
  induction lines generalizing text moments with
  | nil => exact ⟨[], rfl, by rw [h.text_eq]; rfl⟩
  | cons line lines ih =>
    obtain ⟨hline, hfits⟩ := h.lines line (by simp)
    obtain ⟨response, hresponse⟩ := handleLine_answers codec (stripped line)
      (hbuilt 0)
    obtain ⟨responses, hresponses, hlater⟩ := ih h.tail (fun k => hbuilt (k + 1))
    have hbytes : encodeUtf8 text = encodeUtf8 line ++ lf :: encodeUtf8 (block lines ++ rest) := by
      rw [h.text_eq, block_cons]
      simp
    have hmoments : (fun k => moments (k + (line :: lines).length)) =
        fun k => moments (k + lines.length + 1) := rfl
    refine ⟨response :: responses, ?_, ?_⟩
    · rw [List.mapIdx_cons, hresponse, hresponses]
      rfl
    · dsimp only at hlater ⊢
      rw [hbytes, handleConnection_fits hline hfits hresponse, hlater, hmoments, List.flatMap_cons,
        List.append_assoc]

end Connection

theorem written_lines (codec : Codec) (responses : List RpcResponse) :
    encodeUtf8 (block (responses.map (fun r => (codec.toString r).toList))) =
      responses.flatMap (writeResponse codec) := by
  induction responses with
  | nil => rfl
  | cons response responses ih =>
    rw [List.map_cons, block_cons, encodeUtf8_append, encodeUtf8_cons_lf, ih, List.flatMap_cons]
    simp [writeResponse]

/-- A connection answers every line, and what follows the lines with an error, exactly
when no character of what follows them straddles the cap. -/
theorem every_line_answered (codec : Codec)
    (hcodec : ∀ response, '\n' ∉ (codec.toString response).toList) (moments : ℕ → Moment)
    (hbuilt : ∀ k, (moments k).state.config.Built) (text : List Char) :
    (∃ lines rest, Framed text lines rest) ∧
    ∀ lines rest, Framed text lines rest →
      (AnswersEveryLine codec moments lines rest
        (handleConnection codec moments (encodeUtf8 text)) ↔ CapOnBoundary rest) := by
  refine ⟨framed_exists text, fun lines rest h => ?_⟩
  obtain ⟨responses, hresponses, hrun⟩ := handleConnection_framed codec h hbuilt
  dsimp only at hrun
  rw [hrun]
  by_cases hrest : rest = []
  · obtain rfl := hrest
    rw [encodeUtf8_nil, handleConnection_nil]
    refine iff_of_true
      ⟨responses, [], hresponses, by simp, by simp, fun r _ => hcodec r, ?_, by simp⟩
      (.inl (by simp))
    rw [written_lines, List.append_nil, List.append_nil]
  · obtain ⟨hreplied, hsilent⟩ := handleConnection_rest codec
      (fun k => moments (k + lines.length)) hrest h.rest_capped
    constructor
    · rintro ⟨responses', last, hresponses', _, hlast, _, hwritten, _⟩
      by_contra hstraddled
      obtain ⟨message, rfl⟩ := hlast hrest
      have hsame : responses = responses' :=
        List.map_injective_iff.mpr (Option.some_injective _) (hresponses.symm.trans hresponses')
      rw [hsilent hstraddled, written_lines, hsame, List.flatMap_append, List.append_nil,
        List.self_eq_append_right] at hwritten
      simp [writeResponse] at hwritten
    · intro hboundary
      obtain ⟨message, hlast⟩ := hreplied hboundary
      rw [hlast]
      refine ⟨responses, [failure none .invalidRequest message], hresponses,
        fun hnil => absurd hnil hrest, fun _ => ⟨message, rfl⟩, fun r _ => hcodec r, ?_, rfl⟩
      rw [written_lines, List.flatMap_append, List.flatMap_singleton]

/-- The libraries, as far as a line that is not JSON has them at work. -/
def notJson : Codec where
  fromStr _ := .error "expected value at line 1 column 1"
  request _ := .error "invalid type: null, expected struct Request"
  limitsSaslParams _ := .error "invalid type: null, expected struct LimitsSaslParams"
  toString response :=
    match response.payload with
    | .error ⟨.parseError, message⟩ =>
      "\x7b\"jsonrpc\":\"2.0\",\"error\":\x7b\"code\":-32700,\"message\":\"" ++
        String.ofList (message.toList.filter (· ≠ '\n')) ++ "\"\x7d,\"id\":null\x7d"
    | .error ⟨_, message⟩ =>
      "\x7b\"jsonrpc\":\"2.0\",\"error\":\x7b\"code\":-32600,\"message\":\"" ++
        String.ofList (message.toList.filter (· ≠ '\n')) ++ "\"\x7d,\"id\":null\x7d"
    | .ok _ => "\x7b\"jsonrpc\":\"2.0\",\"result\":\"pong\",\"id\":1\x7d"
  quoted s := "\"" ++ s ++ "\""

/-- A line that is not JSON and a request that is cut short. -/
theorem every_line_answered_cut_short :
    let config : Config := ⟨⟨.unix "/run/valkey.sock", 0, none, none, .resp2, none, none⟩,
      "postfix-ratelimitd", .defer, true, "/run/policy.sock", none, [], CheckPlan.new []⟩
    let moments : ℕ → Moment := fun _ =>
      ⟨⟨config, ⟨"postfix-ratelimitd"⟩, config.redisConnectionInfo⟩, fun _ => none⟩
    AnswersEveryLine notJson moments ["hello\r".toList] "\x7b\"jsonrpc".toList
      (handleConnection notJson moments (encodeUtf8 "hello\r\n\x7b\"jsonrpc".toList)) := by
  intro config moments
  have hcodec : ∀ response, '\n' ∉ (notJson.toString response).toList := by
    intro response
    unfold notJson
    dsimp only
    split <;> simp
  have hbuilt : ∀ k, (moments k).state.config.Built :=
    fun _ => ⟨by simp [moments, config], .inl rfl⟩
  have hframed :
      Framed "hello\r\n\x7b\"jsonrpc".toList ["hello\r".toList] "\x7b\"jsonrpc".toList := by
    refine ⟨by decide, by decide, ?_⟩
    intro line after _ hcut
    have hmem : '\n' ∈ "\x7b\"jsonrpc".toList := hcut ▸ (by simp)
    exact absurd hmem (by decide)
  exact ((every_line_answered notJson hcodec moments hbuilt _).2 _ _ hframed).mpr (.inl (by decide))

theorem length_encodeUtf8_replicate (n : ℕ) : (encodeUtf8 (List.replicate n 'a')).length = n := by
  induction n with
  | zero => rfl
  | succ n ih =>
    have hcons : encodeUtf8 (List.replicate (n + 1) 'a') =
        encodeUtf8 ['a'] ++ encodeUtf8 (List.replicate n 'a') := rfl
    rw [hcons, List.length_append, ih, Nat.add_comm]
    rfl

/-- An oversized line that has a character of two bytes across the cap gets no reply. -/
theorem oversized_line_unanswered :
    let text := List.replicate 65535 'a' ++ ['é', '\n']
    Framed text [] text ∧ ∀ (codec : Codec) (moments : ℕ → Moment),
      (handleConnection codec moments (encodeUtf8 text)).written = [] ∧
      ¬AnswersEveryLine codec moments [] text
        (handleConnection codec moments (encodeUtf8 text)) := by
  intro text
  have hbefore : (encodeUtf8 (List.replicate 65535 'a')).length = 65535 :=
    length_encodeUtf8_replicate _
  have hno : '\n' ∉ List.replicate 65535 'a' ++ ['é'] := by
    intro hmem
    rcases List.mem_append.mp hmem with hmem | hmem
    · exact absurd (List.eq_of_mem_replicate hmem) (by decide)
    · exact absurd hmem (by decide)
  have hline : (encodeUtf8 (List.replicate 65535 'a' ++ ['é'])).length = 65537 := by
    rw [encodeUtf8_append, List.length_append, hbefore]
    rfl
  have htext : text = (List.replicate 65535 'a' ++ ['é']) ++ '\n' :: [] :=
    (List.append_assoc (List.replicate 65535 'a') ['é'] ['\n']).symm
  have hframed : Framed text [] text := framed_of_long_line hno (by rw [hline]; decide) htext
  have hstraddled : ¬CapOnBoundary text := by
    apply not_capOnBoundary (c := 'é')
    · rw [hbefore]
      decide
    · rw [hline]
      decide
  refine ⟨hframed, fun codec moments => ?_⟩
  have hsome : text ≠ [] := List.append_ne_nil_of_right_ne_nil _ (by simp)
  have hsilent := (handleConnection_rest codec moments hsome hframed.rest_capped).2 hstraddled
  rw [hsilent]
  refine ⟨rfl, ?_⟩
  rintro ⟨responses, last, _, _, hlast, _, hwritten, _⟩
  obtain ⟨message, rfl⟩ := hlast hsome
  rw [written_lines, List.flatMap_append] at hwritten
  simp [writeResponse] at hwritten

end PostfixRatelimitd
