import PostfixRatelimitd.Protocol
import Mathlib.Data.List.Induction

/-!
# The policy grammar

What `readFrom` makes of a stream of text: a request that ends within the cap is parsed
and consumed exactly, and anything else is told apart by where the stream ends. A
stream cut short before its blank line never yields a request, and a list of encoded
requests is read back one by one.
-/
namespace PostfixRatelimitd
namespace Request

/-! ## One line -/

theorem splitOnce_iff {c : Char} {text k v : List Char} :
    splitOnce c text = some (k, v) ↔ text = k ++ c :: v ∧ c ∉ k := by
  induction text generalizing k v with
  | nil => simp [splitOnce]
  | cons x xs ih =>
    by_cases hx : x = c
    · rw [splitOnce, if_pos hx]
      constructor
      · intro h
        obtain ⟨rfl, rfl⟩ : [] = k ∧ xs = v := by simpa using h
        exact ⟨by rw [hx]; rfl, by simp⟩
      · rintro ⟨h, hk⟩
        cases k with
        | nil =>
          obtain ⟨_, rfl⟩ := List.cons.inj h
          rfl
        | cons y k =>
          obtain ⟨rfl, _⟩ := List.cons.inj h
          exact absurd (by simp [hx]) hk
    · rw [splitOnce, if_neg hx, Option.map_eq_some_iff]
      constructor
      · rintro ⟨⟨k', v'⟩, h, heq⟩
        obtain ⟨rfl, hk'⟩ := ih.mp h
        obtain ⟨rfl, rfl⟩ : x :: k' = k ∧ v' = v := by simpa using heq
        exact ⟨rfl, by simp [hk', Ne.symm hx]⟩
      · rintro ⟨h, hk⟩
        cases k with
        | nil =>
          obtain ⟨rfl, _⟩ := List.cons.inj h
          exact absurd rfl hx
        | cons y k =>
          obtain ⟨rfl, rfl⟩ := List.cons.inj h
          rw [List.mem_cons, not_or] at hk
          exact ⟨(k, v), ih.mpr ⟨rfl, hk.2⟩, rfl⟩

/-- A line without its trailing carriage returns. -/
def stripped (line : List Char) : List Char := line.rdropWhile (fun c => c == '\r')

theorem dropWhile_congr {p q : Char → Bool} {xs : List Char} (h : ∀ x ∈ xs, p x = q x) :
    xs.dropWhile p = xs.dropWhile q := by
  induction xs with
  | nil => rfl
  | cons x xs ih =>
    obtain ⟨hx, hxs⟩ := List.forall_mem_cons.mp h
    rw [List.dropWhile_cons, List.dropWhile_cons, hx, ih hxs]

theorem trimEndMatches_line {line : List Char} (h : '\n' ∉ line) :
    trimEndMatches isLineEnd (line ++ ['\n']) = stripped line := by
  have hcongr : ∀ c ∈ line.reverse, isLineEnd c = (c == '\r') := by
    intro c hc
    have hne : c ≠ '\n' := by
      rintro rfl
      exact h (List.mem_reverse.mp hc)
    simp [isLineEnd, hne]
  unfold trimEndMatches stripped
  rw [List.rdropWhile_concat_pos _ _ _ (by rfl)]
  unfold List.rdropWhile
  rw [dropWhile_congr hcongr]

/-- A line is blank when it has nothing but carriage returns. -/
theorem stripped_isEmpty {line : List Char} :
    (stripped line).isEmpty = true ↔ ∀ c ∈ line, c = '\r' := by
  unfold stripped
  rw [List.isEmpty_iff, List.rdropWhile_eq_nil_iff]
  simp

/-- A line reads as `key=value`. -/
def Splits (line key value : List Char) : Prop :=
  stripped line = key ++ '=' :: value ∧ '=' ∉ key

/-- `value` is what the last line with this key gives it. -/
def LastSplit (lines : List (List Char)) (key value : List Char) : Prop :=
  ∃ earlier line later, lines = earlier ++ line :: later ∧ Splits line key value ∧
    ∀ l ∈ later, ∀ v, ¬Splits l key v

/-- The attributes a block of lines leaves behind. -/
def attributesOf (attributes : String → Option String) (lines : List (List Char)) :
    String → Option String :=
  lines.foldl (fun a line => insertLine a (stripped line)) attributes

theorem Splits.unique {line key v w : List Char} (hv : Splits line key v) (hw : Splits line key w) :
    v = w := by
  have hsame := (splitOnce_iff.mpr hv).symm.trans (splitOnce_iff.mpr hw)
  simpa using hsame

theorem lastSplit_snoc {lines : List (List Char)} {line key v : List Char} :
    LastSplit (lines ++ [line]) key v ↔
      Splits line key v ∨ ((∀ w, ¬Splits line key w) ∧ LastSplit lines key v) := by
  constructor
  · rintro ⟨earlier, line', later, heq, hsplit, hno⟩
    rcases List.eq_nil_or_concat later with rfl | ⟨later, l, rfl⟩
    · obtain ⟨_, hl⟩ := List.append_singleton_inj.mp heq
      exact .inl (hl ▸ hsplit)
    · have hsnoc : lines ++ [line] = (earlier ++ line' :: later) ++ [l] := by simpa using heq
      obtain ⟨hlines, hl⟩ := List.append_singleton_inj.mp hsnoc
      refine .inr ⟨?_, earlier, line', later, hlines, hsplit, fun x hx => hno x (by simp [hx])⟩
      exact hl ▸ hno l (by simp)
  · rintro (hsplit | ⟨hskip, earlier, line', later, rfl, hsplit, hno⟩)
    · exact ⟨lines, line, [], rfl, hsplit, by simp⟩
    · refine ⟨earlier, line', later ++ [line], by simp, hsplit, ?_⟩
      intro l hl
      rcases List.mem_append.mp hl with hl | hl
      · exact hno l hl
      · exact List.mem_singleton.mp hl ▸ hskip

/-- A line that speaks about a key sets it. -/
theorem insertLine_of_splits {attributes : String → Option String} {line value : List Char}
    {k : String} (h : Splits line k.toList value) :
    insertLine attributes (stripped line) k = some (String.ofList value) := by
  unfold insertLine
  rw [splitOnce_iff.mpr h]
  simp [insert]

theorem insertLine_of_not_splits {attributes : String → Option String} {line : List Char}
    {k : String} (h : ∀ value, ¬Splits line k.toList value) :
    insertLine attributes (stripped line) k = attributes k := by
  unfold insertLine
  cases hs : splitOnce '=' (stripped line) with
  | none => rfl
  | some kv =>
    obtain ⟨key, value⟩ := kv
    have hne : k ≠ String.ofList key := by
      rintro rfl
      apply h value
      rw [String.toList_ofList]
      exact splitOnce_iff.mp hs
    exact Function.update_of_ne hne _ _

theorem attributesOf_iff (lines : List (List Char)) (k v : String) :
    attributesOf (fun _ => none) lines k = some v ↔ LastSplit lines k.toList v.toList := by
  induction lines using List.reverseRecOn with
  | nil => simp [attributesOf, LastSplit]
  | append_singleton lines line ih =>
    have hstep : attributesOf (fun _ => none) (lines ++ [line]) =
        insertLine (attributesOf (fun _ => none) lines) (stripped line) := by
      simp [attributesOf]
    rw [hstep, lastSplit_snoc]
    by_cases hkey : ∃ value, Splits line k.toList value
    · obtain ⟨value, hsplit⟩ := hkey
      rw [insertLine_of_splits hsplit, Option.some.injEq]
      constructor
      · rintro rfl
        exact .inl (by simpa using hsplit)
      · rintro (hv | ⟨hno, _⟩)
        · rw [hsplit.unique hv, String.ofList_toList]
        · exact absurd hsplit (hno value)
    · rw [not_exists] at hkey
      rw [insertLine_of_not_splits hkey, ih]
      constructor
      · exact fun hlast => .inr ⟨hkey, hlast⟩
      · rintro (hv | ⟨_, hlast⟩)
        · exact absurd hv (hkey _)
        · exact hlast

/-! ## The loop -/

section Loop
variable {attributes : String → Option String} {limited rest : Limited} {read : ℕ}
  {line : List Char}

theorem readLines_error {e : IoError} (h : readLine limited = (.error e, rest)) :
    readLines attributes limited = (.error e, rest) := by
  rw [readLines]
  split
  · rename_i heq
    rw [h] at heq
    cases heq
    rfl
  · rename_i heq
    rw [h] at heq
    cases heq

/-- One pass of the loop, once its line is read. -/
theorem readLines_ok (h : readLine limited = (.ok (read, line), rest)) :
    readLines attributes limited =
      if read = 0 then
        if rest.limit = 0 then (.error exceededMaxSize, rest) else (.ok none, rest)
      else if line.getLast? ≠ some '\n' then
        if rest.limit = 0 then (.error exceededMaxSize, rest) else (.error closedMidRequest, rest)
      else if (trimEndMatches isLineEnd line).isEmpty then (.ok (some ⟨attributes⟩), rest)
      else readLines (insertLine attributes (trimEndMatches isLineEnd line)) rest := by
  rw [readLines]
  split
  · rename_i heq
    rw [h] at heq
    cases heq
  · rename_i heq
    rw [h] at heq
    cases heq
    rfl

/-- A line that fits is taken in, or ends the request. -/
theorem readLines_fits {tail : List UInt8} {limit : ℕ} (hline : '\n' ∉ line)
    (hfits : (encodeUtf8 line).length + 1 ≤ limit) :
    readLines attributes ⟨limit, encodeUtf8 line ++ lf :: tail⟩ =
      if (stripped line).isEmpty then
        (.ok (some ⟨attributes⟩), ⟨limit - ((encodeUtf8 line).length + 1), tail⟩)
      else readLines (insertLine attributes (stripped line))
        ⟨limit - ((encodeUtf8 line).length + 1), tail⟩ := by
  rw [readLines_ok (readLine_fits hline hfits), if_neg (by omega), if_neg (by simp),
    trimEndMatches_line hline]

/-- A line that the limit cuts never yields a request. -/
theorem readLines_no_lf {input : List UInt8} {limit : ℕ} (hno : lf ∉ input.take limit)
    (r : Request) (rest : Limited) :
    readLines attributes ⟨limit, input⟩ ≠ (.ok (some r), rest) := by
  intro hsome
  cases hread : readLine ⟨limit, input⟩ with
  | mk result after =>
    cases result with
    | error e =>
      rw [readLines_error hread] at hsome
      cases hsome
    | ok value =>
      obtain ⟨read, line⟩ := value
      have hline : '\n' ∉ line := by
        intro hmem
        have hcut : encodeUtf8 line = input.take limit :=
          (readLine_ok_chunk hread).symm.trans (takeThrough_of_notMem hno)
        exact hno (hcut ▸ lf_mem_encodeUtf8.mpr hmem)
      have hlast : line.getLast? ≠ some '\n' := getLast?_ne_lf hline
      rw [readLines_ok hread, if_pos hlast] at hsome
      split_ifs at hsome <;> cases hsome

/-- Where the limit comes before any line feed the request is too long. -/
theorem readLines_capped {input : List UInt8} {limit : ℕ} (hno : lf ∉ input.take limit)
    (hmore : limit ≤ input.length) :
    ∃ e rest, readLines attributes ⟨limit, input⟩ = (.error e, rest) ∧ e.kind = .invalidData := by
  have hread := readLine_capped hno hmore
  cases hdecode : decodeUtf8 (input.take limit) with
  | none =>
    rw [hdecode] at hread
    exact ⟨_, _, readLines_error hread, rfl⟩
  | some line =>
    rw [hdecode] at hread
    have hline : '\n' ∉ line := by
      intro hmem
      rw [encode_of_decode hdecode] at hno
      exact hno (lf_mem_encodeUtf8.mpr hmem)
    have hlast : line.getLast? ≠ some '\n' := getLast?_ne_lf hline
    refine ⟨exceededMaxSize, ⟨0, input.drop limit⟩, ?_, rfl⟩
    rw [readLines_ok hread, if_pos hlast]
    simp

end Loop

/-! ## Requests in a stream of text -/

/-- The lines of a block, each ended by a line feed. -/
def block (lines : List (List Char)) : List Char := lines.flatMap (fun line => line ++ ['\n'])

theorem block_cons (line : List Char) (lines : List (List Char)) :
    block (line :: lines) = line ++ '\n' :: block lines := by
  simp [block]

/-- The text begins with the lines `head`, none of them blank, then a blank line. -/
structure RequestEnd (text : List Char) (head : List (List Char)) (blank rest : List Char) :
    Prop where
  text_eq : text = block head ++ blank ++ '\n' :: rest
  lines : ∀ line ∈ head, '\n' ∉ line ∧ ∃ c ∈ line, c ≠ '\r'
  blank : ∀ c ∈ blank, c = '\r'

/-- The bytes of a request, its blank line included. -/
def requestBytes (head : List (List Char)) (blank : List Char) : List UInt8 :=
  encodeUtf8 (block head ++ blank ++ ['\n'])

theorem requestBytes_cons (line : List Char) (head : List (List Char)) (blank : List Char) :
    requestBytes (line :: head) blank = encodeUtf8 line ++ lf :: requestBytes head blank := by
  simp [requestBytes, block_cons]

namespace RequestEnd
variable {text blank rest : List Char} {head : List (List Char)}

theorem bytes (h : RequestEnd text head blank rest) :
    encodeUtf8 text = requestBytes head blank ++ encodeUtf8 rest := by
  rw [h.text_eq]
  simp [requestBytes]

theorem cons {line : List Char} (h : RequestEnd text head blank rest) (hline : '\n' ∉ line)
    (hfull : ∃ c ∈ line, c ≠ '\r') :
    RequestEnd (line ++ '\n' :: text) (line :: head) blank rest where
  text_eq := by rw [h.text_eq, block_cons]; simp
  lines := List.forall_mem_cons.mpr ⟨⟨hline, hfull⟩, h.lines⟩
  blank := h.blank

end RequestEnd

theorem stripped_not_isEmpty {line : List Char} (h : ∃ c ∈ line, c ≠ '\r') :
    ¬((stripped line).isEmpty = true) := by
  obtain ⟨c, hc, hne⟩ := h
  exact fun hempty => hne (stripped_isEmpty.mp hempty c hc)

/-- A request within the limit is read to its end, whatever bytes follow. -/
theorem readLines_request {attributes : String → Option String} {head : List (List Char)}
    {blank : List Char} {tail : List UInt8} {limit : ℕ}
    (hlines : ∀ line ∈ head, '\n' ∉ line ∧ ∃ c ∈ line, c ≠ '\r') (hblank : ∀ c ∈ blank, c = '\r')
    (hfits : (requestBytes head blank).length ≤ limit) :
    readLines attributes ⟨limit, requestBytes head blank ++ tail⟩ =
      (.ok (some ⟨attributesOf attributes head⟩),
        ⟨limit - (requestBytes head blank).length, tail⟩) := by
  induction head generalizing attributes limit with
  | nil =>
    have hno : '\n' ∉ blank := fun hmem => by simpa using hblank _ hmem
    have hbytes : requestBytes [] blank = encodeUtf8 blank ++ [lf] := by
      simp [requestBytes, block]
    rw [hbytes, List.length_append, List.length_singleton] at hfits
    rw [hbytes, List.append_assoc, List.singleton_append, readLines_fits hno hfits,
      if_pos (stripped_isEmpty.mpr hblank), List.length_append, List.length_singleton]
    rfl
  | cons line head ih =>
    obtain ⟨⟨hno, hfull⟩, hlines⟩ := List.forall_mem_cons.mp hlines
    rw [requestBytes_cons, List.length_append, List.length_cons] at hfits
    rw [requestBytes_cons, List.append_assoc, List.cons_append,
      readLines_fits hno (by omega), if_neg (stripped_not_isEmpty hfull), ih hlines (by omega),
      List.length_append, List.length_cons]
    refine Prod.ext rfl ?_
    simp only [Limited.mk.injEq, and_true]
    omega

/-- A stream that is cut before a request's end yields no request. -/
theorem readLines_cut {attributes : String → Option String} {head : List (List Char)}
    {blank : List Char} {limit m : ℕ}
    (hlines : ∀ line ∈ head, '\n' ∉ line ∧ ∃ c ∈ line, c ≠ '\r') (hblank : ∀ c ∈ blank, c = '\r')
    (hcut : m < (requestBytes head blank).length) (r : Request) (rest : Limited) :
    readLines attributes ⟨limit, (requestBytes head blank).take m⟩ ≠ (.ok (some r), rest) := by
  -- What is left of a line that is cut has no line feed.
  have hpart : ∀ (line : List Char) (bytes : List UInt8) (k : ℕ), '\n' ∉ line →
      k ≤ (encodeUtf8 line).length → lf ∉ (encodeUtf8 line ++ bytes).take k := by
    intro line bytes k hno hk hmem
    rw [List.take_append_of_le_length hk] at hmem
    exact hno (lf_mem_encodeUtf8.mp (List.mem_of_mem_take hmem))
  induction head generalizing attributes limit m with
  | nil =>
    have hno : '\n' ∉ blank := fun hmem => by simpa using hblank _ hmem
    have hbytes : requestBytes [] blank = encodeUtf8 blank ++ [lf] := by
      simp [requestBytes, block]
    rw [hbytes, List.length_append, List.length_singleton] at hcut
    rw [hbytes]
    apply readLines_no_lf
    exact fun hmem => hpart blank [lf] m hno (by omega) (List.mem_of_mem_take hmem)
  | cons line head ih =>
    obtain ⟨⟨hno, hfull⟩, hlines⟩ := List.forall_mem_cons.mp hlines
    rw [requestBytes_cons] at hcut ⊢
    rcases Nat.lt_or_ge (encodeUtf8 line).length m with hlong | hshort
    · obtain ⟨k, rfl⟩ : ∃ k, m = (encodeUtf8 line).length + (k + 1) :=
        ⟨m - (encodeUtf8 line).length - 1, by omega⟩
      rw [List.length_append, List.length_cons] at hcut
      rw [List.take_length_add_append, List.take_succ_cons]
      rcases Nat.lt_or_ge limit ((encodeUtf8 line).length + 1) with hcap | hfits
      · apply readLines_no_lf
        exact hpart line _ limit hno (by omega)
      · rw [readLines_fits hno hfits, if_neg (stripped_not_isEmpty hfull)]
        exact ih hlines (by omega)
    · apply readLines_no_lf
      exact fun hmem => hpart line _ m hno hshort (List.mem_of_mem_take hmem)

/-- Without a request's end inside the limit, the stream is too long or ends too early. -/
theorem readLines_otherwise (attributes : String → Option String) (text : List Char) (limit : ℕ)
    (hnone : ∀ head blank rest, RequestEnd text head blank rest →
      limit < (requestBytes head blank).length) :
    (limit ≤ (encodeUtf8 text).length → ∃ e rest,
      readLines attributes ⟨limit, encodeUtf8 text⟩ = (.error e, rest) ∧ e.kind = .invalidData) ∧
    ((encodeUtf8 text).length < limit →
      (text = [] ∨ text.getLast? = some '\n' → ∃ rest,
        readLines attributes ⟨limit, encodeUtf8 text⟩ = (.ok none, rest)) ∧
      (¬(text = [] ∨ text.getLast? = some '\n') → ∃ rest,
        readLines attributes ⟨limit, encodeUtf8 text⟩ = (.error closedMidRequest, rest))) := by
  induction hlen : text.length using Nat.strong_induction_on generalizing attributes text limit with
  | _ length ih =>
  rcases notMem_or_cut '\n' text with hno | ⟨line, after, hno, rfl⟩
  · have hlast : text.getLast? ≠ some '\n' := getLast?_ne_lf hno
    constructor
    · intro hlong
      apply readLines_capped _ hlong
      exact fun hmem => hno (lf_mem_encodeUtf8.mp (List.mem_of_mem_take hmem))
    · intro hshort
      have hleft : ¬(limit - (encodeUtf8 text).length = 0) := by omega
      rw [readLines_ok (readLine_tail hno hshort.le)]
      constructor
      · rintro (rfl | hl)
        · exact ⟨_, by rw [if_pos (by rfl), if_neg hleft]⟩
        · exact absurd hl hlast
      · intro hmid
        have hsome : ¬((encodeUtf8 text).length = 0) := by
          rw [List.length_eq_zero_iff, encodeUtf8_eq_nil]
          exact fun hnil => hmid (.inl hnil)
        exact ⟨_, by rw [if_neg hsome, if_pos hlast, if_neg hleft]⟩
  · have hbytes : encodeUtf8 (line ++ '\n' :: after) =
        encodeUtf8 line ++ lf :: encodeUtf8 after := by simp
    have hlength : (encodeUtf8 (line ++ '\n' :: after)).length =
        (encodeUtf8 line).length + 1 + (encodeUtf8 after).length := by
      rw [hbytes, List.length_append, List.length_cons]
      omega
    rcases Nat.lt_or_ge limit ((encodeUtf8 line).length + 1) with hcap | hfits
    · refine ⟨fun hlong => readLines_capped ?_ hlong, fun hshort => by omega⟩
      intro hmem
      rw [hbytes, List.take_append_of_le_length (by omega)] at hmem
      exact hno (lf_mem_encodeUtf8.mp (List.mem_of_mem_take hmem))
    · have hfull : ∃ c ∈ line, c ≠ '\r' := by
        by_contra hblank
        push Not at hblank
        have hend := hnone [] line after ⟨by simp [block], by simp, hblank⟩
        simp [requestBytes, block] at hend
        omega
      have hrest := ih after.length (by simp [← hlen]; omega)
        (insertLine attributes (stripped line)) after (limit - ((encodeUtf8 line).length + 1)) (by
          intro head blank rest hend
          have hlt := hnone _ _ _ (hend.cons hno hfull)
          rw [requestBytes_cons, List.length_append, List.length_cons] at hlt
          omega) rfl
      rw [hlength, hbytes, readLines_fits hno hfits, if_neg (stripped_not_isEmpty hfull)]
      have hends : (line ++ '\n' :: after = [] ∨ (line ++ '\n' :: after).getLast? = some '\n') ↔
          (after = [] ∨ after.getLast? = some '\n') := by
        cases after with
        | nil => simp
        | cons c after => simp [List.getLast?_append]
      rw [hends]
      exact ⟨fun hlong => hrest.1 (by omega), fun hshort => hrest.2 (by omega)⟩

/-! ## Encoded requests -/

def pairLine (pair : String × String) : List Char := pair.1.toList ++ '=' :: pair.2.toList

/-- A request as a client writes it. -/
def encodeRequest (pairs : List (String × String)) : List UInt8 :=
  requestBytes (pairs.map pairLine) []

/-- What a client may put into a line so that it is read back. -/
structure Encodable (pair : String × String) : Prop where
  key : '=' ∉ pair.1.toList ∧ '\r' ∉ pair.1.toList ∧ '\n' ∉ pair.1.toList
  value : '\n' ∉ pair.2.toList ∧ pair.2.toList.getLast? ≠ some '\r'

/-- The results of calling `readFrom` again and again on one reader. -/
def readRequests : ℕ → List UInt8 → List (Except IoError (Option Request))
  | 0, _ => []
  | n + 1, reader => (readFrom reader).1 :: readRequests n (readFrom reader).2

section Encode
variable {pair : String × String} {pairs : List (String × String)}

theorem lf_notMem_pairLine (h : Encodable pair) : '\n' ∉ pairLine pair := by
  simp [pairLine, h.key.2.2, h.value.1]

theorem pairLine_full (pair : String × String) : ∃ c ∈ pairLine pair, c ≠ '\r' :=
  ⟨'=', by simp [pairLine], by decide⟩

theorem insertLine_pairLine (h : Encodable pair) (attributes : String → Option String) :
    insertLine attributes (stripped (pairLine pair)) = insert attributes pair.1 pair.2 := by
  have hlast : (pairLine pair).getLast? ≠ some '\r' := by
    unfold pairLine
    rw [List.getLast?_append, List.getLast?_cons, Option.some_or]
    cases hv : pair.2.toList.getLast? with
    | none => decide
    | some c =>
      have := h.value.2
      rw [hv] at this
      exact this
  have hstripped : stripped (pairLine pair) = pairLine pair := by
    apply List.rdropWhile_eq_self_iff.mpr
    intro hne hcr
    apply hlast
    rw [List.getLast?_eq_some_getLast hne]
    simpa using hcr
  have hsplit : splitOnce '=' (pairLine pair) = some (pair.1.toList, pair.2.toList) :=
    splitOnce_iff.mpr ⟨rfl, h.key.1⟩
  unfold insertLine
  rw [hstripped, hsplit]
  simp

/-- Read back, a request maps each key to the last value it was given. -/
theorem attributesOf_pairs (h : ∀ pair ∈ pairs, Encodable pair) :
    attributesOf (fun _ => none) (pairs.map pairLine) = fun k => pairs.reverse.lookup k := by
  induction pairs using List.reverseRecOn with
  | nil => rfl
  | append_singleton pairs pair ih =>
    have hpairs := ih (fun x hx => h x (List.mem_append_left _ hx))
    have hstep : attributesOf (fun _ => none) ((pairs ++ [pair]).map pairLine) =
        insertLine (attributesOf (fun _ => none) (pairs.map pairLine))
          (stripped (pairLine pair)) := by
      simp [attributesOf]
    rw [hstep, insertLine_pairLine (h pair (by simp)), hpairs]
    funext k
    rw [List.reverse_append, List.reverse_singleton, List.singleton_append, List.lookup_cons]
    unfold insert
    by_cases hk : k = pair.1
    · have hself : (k == pair.1) = true := beq_iff_eq.mpr hk
      rw [hself, hk, Function.update_self]
    · have hother : (k == pair.1) = false := beq_false_of_ne hk
      rw [Function.update_of_ne hk, hother]

theorem readFrom_encodeRequest (h : ∀ pair ∈ pairs, Encodable pair)
    (hfits : (encodeRequest pairs).length ≤ maxRequestBytes) (tail : List UInt8) :
    readFrom (encodeRequest pairs ++ tail) =
      (.ok (some ⟨fun k => pairs.reverse.lookup k⟩), tail) := by
  have hlines : ∀ line ∈ pairs.map pairLine, '\n' ∉ line ∧ ∃ c ∈ line, c ≠ '\r' := by
    intro line hline
    obtain ⟨pair, hpair, rfl⟩ := List.mem_map.mp hline
    exact ⟨lf_notMem_pairLine (h pair hpair), pairLine_full pair⟩
  unfold readFrom encodeRequest
  rw [readLines_request hlines (by simp) hfits, attributesOf_pairs h]

theorem readRequests_encode {requests : List (List (String × String))}
    (h : ∀ pairs ∈ requests, (∀ pair ∈ pairs, Encodable pair) ∧
      (encodeRequest pairs).length ≤ maxRequestBytes) :
    readRequests (requests.length + 1) (requests.flatMap encodeRequest) =
      requests.map (fun pairs => .ok (some ⟨fun k => pairs.reverse.lookup k⟩)) ++ [.ok none] := by
  induction requests with
  | nil =>
    have hend : readFrom [] = (.ok none, []) := by
      unfold readFrom
      rw [readLines_ok (readLine_nil maxRequestBytes)]
      rfl
    simp [readRequests, hend]
  | cons pairs requests ih =>
    obtain ⟨⟨hpairs, hfits⟩, hrest⟩ := List.forall_mem_cons.mp h
    rw [List.length_cons, readRequests, List.flatMap_cons, readFrom_encodeRequest hpairs hfits,
      ih hrest]
    rfl

end Encode

/-- `readFrom` parses the policy grammar: a request that ends within the cap is consumed
to its last byte and maps each key to its last value, any other stream is an error of
the right kind or an end of input, no proper beginning of a request is a request, and
encoded requests are read back one after another. -/
theorem readFrom_policy_grammar :
    (∀ text head blank rest, RequestEnd text head blank rest →
      (requestBytes head blank).length ≤ maxRequestBytes →
        encodeUtf8 text = requestBytes head blank ++ encodeUtf8 rest ∧
        ∃ r, readFrom (encodeUtf8 text) = (.ok (some r), encodeUtf8 rest) ∧
          ∀ k v, r.attributes k = some v ↔ LastSplit head k.toList v.toList) ∧
    (∀ text, (∀ head blank rest, RequestEnd text head blank rest →
        maxRequestBytes < (requestBytes head blank).length) →
      (maxRequestBytes ≤ (encodeUtf8 text).length →
        ∃ e rest, readFrom (encodeUtf8 text) = (.error e, rest) ∧ e.kind = .invalidData) ∧
      ((encodeUtf8 text).length < maxRequestBytes →
        (text = [] ∨ text.getLast? = some '\n' →
          ∃ rest, readFrom (encodeUtf8 text) = (.ok none, rest)) ∧
        (¬(text = [] ∨ text.getLast? = some '\n') →
          ∃ e rest, readFrom (encodeUtf8 text) = (.error e, rest) ∧ e.kind = .unexpectedEof))) ∧
    (∀ text head blank rest, RequestEnd text head blank rest →
      ∀ m, m < (requestBytes head blank).length →
        ∀ r left, readFrom ((encodeUtf8 text).take m) ≠ (.ok (some r), left)) ∧
    ∀ requests : List (List (String × String)),
      (∀ pairs ∈ requests, (∀ pair ∈ pairs, Encodable pair) ∧
        (encodeRequest pairs).length ≤ maxRequestBytes) →
      readRequests (requests.length + 1) (requests.flatMap encodeRequest) =
        requests.map (fun pairs => .ok (some ⟨fun k => pairs.reverse.lookup k⟩)) ++ [.ok none] := by
  refine ⟨?_, ?_, ?_, fun requests h => readRequests_encode h⟩
  · intro text head blank rest hend hfits
    refine ⟨hend.bytes, ⟨attributesOf (fun _ => none) head⟩, ?_, attributesOf_iff head⟩
    unfold readFrom
    rw [hend.bytes, readLines_request hend.lines hend.blank hfits]
  · intro text hnone
    obtain ⟨hlong, hshort⟩ := readLines_otherwise (fun _ => none) text _ hnone
    unfold readFrom
    refine ⟨?_, fun hless => ⟨?_, ?_⟩⟩
    · intro hmore
      obtain ⟨e, rest, hread, hkind⟩ := hlong hmore
      exact ⟨e, rest.input, by rw [hread], hkind⟩
    · intro hstop
      obtain ⟨rest, hread⟩ := (hshort hless).1 hstop
      exact ⟨rest.input, by rw [hread]⟩
    · intro hmid
      obtain ⟨rest, hread⟩ := (hshort hless).2 hmid
      exact ⟨closedMidRequest, rest.input, by rw [hread], rfl⟩
  · intro text head blank rest hend m hm r left hread
    rw [hend.bytes, List.take_append_of_le_length hm.le] at hread
    unfold readFrom at hread
    obtain ⟨hresult, _⟩ := Prod.ext_iff.mp hread
    exact readLines_cut hend.lines hend.blank hm r _ (Prod.ext hresult rfl)

theorem readFrom_policy_grammar_pipelined :
    (∃ r, readFrom (encodeUtf8 "k=v\r\n\nk".toList) = (.ok (some r), encodeUtf8 ['k']) ∧
      ∀ k v, r.attributes k = some v ↔ LastSplit ["k=v\r".toList] k.toList v.toList) ∧
    ∃ e rest, readFrom (encodeUtf8 ['k']) = (.error e, rest) ∧ e.kind = .unexpectedEof := by
  have hend : RequestEnd "k=v\r\n\nk".toList ["k=v\r".toList] [] ['k'] :=
    ⟨by decide, by simp, by simp⟩
  have hnone : ∀ head blank rest, RequestEnd ['k'] head blank rest →
      maxRequestBytes < (requestBytes head blank).length := by
    intro head blank rest h
    have hmem : '\n' ∈ ['k'] := by
      rw [h.text_eq]
      simp
    exact absurd hmem (by decide)
  exact ⟨(readFrom_policy_grammar.1 _ _ _ _ hend (by decide)).2,
    ((readFrom_policy_grammar.2.1 _ hnone).2 (by decide)).2 (by decide)⟩

end Request
end PostfixRatelimitd
