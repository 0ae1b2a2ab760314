import Mathlib.Data.List.Basic

/-!
# Lines of UTF-8 text under a byte limit

A reader is the list of bytes still to come before the end of input. Reading a line
takes bytes up to a line feed, the end of input or the limit, whichever is first, and
fails when those bytes are not UTF-8 on their own. A line feed is a byte of no other
character, so on encoded text lines of bytes are encoded lines of text. The limit can
fall inside a character.
-/
namespace PostfixRatelimitd

/-! ## UTF-8 -/

def encodeUtf8 (text : List Char) : List UInt8 := text.flatMap String.utf8EncodeChar

def decodeUtf8 (bytes : List UInt8) : Option (List Char) :=
  bytes.toByteArray.utf8Decode?.map Array.toList

@[simp] theorem encodeUtf8_nil : encodeUtf8 [] = [] := rfl

@[simp] theorem encodeUtf8_append (s t : List Char) :
    encodeUtf8 (s ++ t) = encodeUtf8 s ++ encodeUtf8 t := List.flatMap_append

@[simp] theorem decode_encode (text : List Char) : decodeUtf8 (encodeUtf8 text) = some text := by
  have h : (encodeUtf8 text).toByteArray = text.utf8Encode := rfl
  unfold decodeUtf8
  rw [h, List.utf8Decode?_utf8Encode]
  rfl

theorem encode_of_decode {bytes : List UInt8} {text : List Char}
    (h : decodeUtf8 bytes = some text) : bytes = encodeUtf8 text := by
  unfold decodeUtf8 at h
  obtain ⟨chars, hchars, rfl⟩ := Option.map_eq_some_iff.mp h
  have hsome : bytes.toByteArray.utf8Decode?.isSome := by simp [hchars]
  have hback := ByteArray.utf8Encode_get_utf8Decode? (b := bytes.toByteArray) (h := hsome)
  simp only [hchars, Option.get_some] at hback
  have hdata := congrArg (fun b => b.data.toList) hback
  simpa [List.utf8Encode, encodeUtf8] using hdata.symm

theorem encodeUtf8_injective : Function.Injective encodeUtf8 := by
  intro s t h
  have hdecode := congrArg decodeUtf8 h
  simpa using hdecode

def lf : UInt8 := 10

@[simp] theorem encodeUtf8_lf : encodeUtf8 ['\n'] = [lf] := rfl

@[simp] theorem encodeUtf8_cons_lf (text : List Char) :
    encodeUtf8 ('\n' :: text) = lf :: encodeUtf8 text := rfl

theorem lf_mem_utf8EncodeChar {c : Char} : lf ∈ String.utf8EncodeChar c ↔ c = '\n' := by
  constructor
  · intro h
    have hbyte : ∀ n, 128 ≤ n → n < 256 → lf ≠ UInt8.ofNat n := by
      intro n hlow hhigh heq
      have hval := congrArg UInt8.toNat heq
      have hlf : lf.toNat = 10 := rfl
      rw [hlf, UInt8.toNat_ofNat', Nat.mod_eq_of_lt hhigh] at hval
      omega
    -- Only the one-byte form has a byte below 128.
    unfold String.utf8EncodeChar at h
    dsimp only at h
    split_ifs at h with h1 h2 h3
    · have hval := congrArg UInt8.toNat (List.mem_singleton.mp h)
      have hlf : lf.toNat = 10 := rfl
      rw [hlf, UInt8.toNat_ofNat', Nat.mod_eq_of_lt (by omega)] at hval
      exact Char.ext (UInt32.toNat_inj.mp hval.symm)
    all_goals simp only [List.mem_cons, List.not_mem_nil, or_false] at h
    · rcases h with h | h <;> exact absurd h (hbyte _ (by omega) (by omega))
    · rcases h with h | h | h <;> exact absurd h (hbyte _ (by omega) (by omega))
    · rcases h with h | h | h | h <;> exact absurd h (hbyte _ (by omega) (by omega))
  · rintro rfl
    decide

theorem lf_mem_encodeUtf8 {text : List Char} : lf ∈ encodeUtf8 text ↔ '\n' ∈ text := by
  unfold encodeUtf8
  rw [List.mem_flatMap]
  constructor
  · rintro ⟨c, hc, hlf⟩
    exact lf_mem_utf8EncodeChar.mp hlf ▸ hc
  · intro h
    exact ⟨'\n', h, lf_mem_utf8EncodeChar.mpr rfl⟩

theorem encodeUtf8_eq_nil {text : List Char} : encodeUtf8 text = [] ↔ text = [] := by
  constructor
  · intro h
    exact encodeUtf8_injective (h.trans encodeUtf8_nil.symm)
  · rintro rfl
    rfl

theorem utf8EncodeChar_append_inj {c d : Char} {xs ys : List UInt8}
    (h : String.utf8EncodeChar c ++ xs = String.utf8EncodeChar d ++ ys) : c = d ∧ xs = ys := by
  have hdecode : ∀ (c : Char) (xs : List UInt8),
      (String.utf8EncodeChar c ++ xs).toByteArray.utf8DecodeChar? 0 = some c := by
    intro c xs
    rw [List.toByteArray_append]
    exact ByteArray.utf8DecodeChar?_utf8EncodeChar_append
  have hc := hdecode c xs
  rw [h, hdecode d ys] at hc
  obtain rfl : d = c := Option.some.inj hc
  exact ⟨rfl, List.append_cancel_left h⟩

/-- Text that begins another byte by byte begins it character by character. -/
theorem isPrefix_of_encodeUtf8 {s t : List Char} (h : encodeUtf8 s <+: encodeUtf8 t) : s <+: t := by
  induction s generalizing t with
  | nil => exact List.nil_prefix
  | cons c s ih =>
    obtain ⟨bytes, hbytes⟩ := h
    cases t with
    | nil =>
      have hnil := encodeUtf8_eq_nil.mp (List.append_eq_nil_iff.mp hbytes).1
      cases hnil
    | cons d t =>
      have hcons : String.utf8EncodeChar c ++ (encodeUtf8 s ++ bytes) =
          String.utf8EncodeChar d ++ encodeUtf8 t := by
        rw [← List.append_assoc]
        exact hbytes
      obtain ⟨rfl, hrest⟩ := utf8EncodeChar_append_inj hcons
      exact List.cons_prefix_cons.mpr ⟨rfl, ih ⟨bytes, hrest⟩⟩

/-- The first `n` bytes of a text are text themselves when no character straddles the cut. -/
theorem decode_take_iff {text head : List Char} {n : ℕ} (hn : n ≤ (encodeUtf8 text).length) :
    decodeUtf8 ((encodeUtf8 text).take n) = some head ↔
      head <+: text ∧ (encodeUtf8 head).length = n := by
  constructor
  · intro h
    have hbytes := encode_of_decode h
    refine ⟨isPrefix_of_encodeUtf8 (hbytes ▸ List.take_prefix _ _), ?_⟩
    rw [← hbytes, List.length_take]
    exact Nat.min_eq_left hn
  · rintro ⟨⟨tail, rfl⟩, rfl⟩
    rw [encodeUtf8_append, List.take_left, decode_encode]

theorem getLast?_ne_lf {line : List Char} (h : '\n' ∉ line) : line.getLast? ≠ some '\n' :=
  fun hlast => h (List.mem_of_getLast? hlast)

/-! ## Cutting at a separator -/

section Through
variable {α : Type*} [DecidableEq α] {s : α}

/-- The list up to and with the first separator, or the whole list if there is none. -/
def takeThrough (s : α) : List α → List α
  | [] => []
  | x :: xs => if x = s then [x] else x :: takeThrough s xs

theorem takeThrough_of_notMem {xs : List α} (h : s ∉ xs) : takeThrough s xs = xs := by
  induction xs with
  | nil => rfl
  | cons x xs ih =>
    rw [List.mem_cons, not_or] at h
    rw [takeThrough, if_neg (Ne.symm h.1), ih h.2]

theorem takeThrough_append {xs : List α} (h : s ∉ xs) (ys : List α) :
    takeThrough s (xs ++ s :: ys) = xs ++ [s] := by
  induction xs with
  | nil => simp [takeThrough]
  | cons x xs ih =>
    rw [List.mem_cons, not_or] at h
    rw [List.cons_append, takeThrough, if_neg (Ne.symm h.1), ih h.2, List.cons_append]

theorem takeThrough_isPrefix (s : α) (xs : List α) : takeThrough s xs <+: xs := by
  induction xs with
  | nil => exact List.prefix_rfl
  | cons x xs ih =>
    rw [takeThrough]
    split
    · exact ⟨xs, rfl⟩
    · obtain ⟨ys, hys⟩ := ih
      exact ⟨ys, by rw [List.cons_append, hys]⟩

/-- A list has no separator, or is cut at its first one. -/
theorem notMem_or_cut (s : α) (xs : List α) :
    s ∉ xs ∨ ∃ line rest, s ∉ line ∧ xs = line ++ s :: rest := by
  induction xs with
  | nil => exact .inl (by simp)
  | cons x xs ih =>
    by_cases hx : x = s
    · exact .inr ⟨[], xs, by simp, by rw [hx]; rfl⟩
    · rcases ih with h | ⟨line, rest, hline, rfl⟩
      · exact .inl (by simp [Ne.symm hx, h])
      · exact .inr ⟨x :: line, rest, by simp [Ne.symm hx, hline], rfl⟩

/-- A list has only one first separator. -/
theorem cut_unique {xs ys as bs : List α} (hxs : s ∉ xs) (hys : s ∉ ys)
    (h : xs ++ s :: as = ys ++ s :: bs) : xs = ys ∧ as = bs := by
  have hthrough := congrArg (takeThrough s) h
  rw [takeThrough_append hxs, takeThrough_append hys] at hthrough
  obtain rfl : xs = ys := (List.append_singleton_inj.mp hthrough).1
  exact ⟨rfl, (List.cons.inj (List.append_cancel_left h)).2⟩

end Through

/-! ## Reading lines -/

inductive ErrorKind
  | invalidData
  | unexpectedEof
  deriving DecidableEq, Repr

structure IoError where
  kind : ErrorKind
  message : String
  deriving DecidableEq, Repr

/-- A reader that stops after `limit` more bytes of `input`. -/
structure Limited where
  limit : ℕ
  input : List UInt8
  deriving DecidableEq, Repr

def invalidUtf8 : IoError := ⟨.invalidData, "stream did not contain valid UTF-8"⟩

/-- The bytes one line takes from a limited reader. -/
def Limited.chunk (r : Limited) : List UInt8 := takeThrough lf (r.input.take r.limit)

/-- Read one line: the number of bytes read and the line, its line feed included. -/
def readLine (r : Limited) : Except IoError (ℕ × List Char) × Limited :=
  let rest : Limited := ⟨r.limit - r.chunk.length, r.input.drop r.chunk.length⟩
  match decodeUtf8 r.chunk with
  | some line => (.ok (r.chunk.length, line), rest)
  | none => (.error invalidUtf8, rest)

namespace Limited

theorem chunk_length_le (r : Limited) : r.chunk.length ≤ r.limit := by
  have h := (takeThrough_isPrefix lf (r.input.take r.limit)).length_le
  unfold chunk
  rw [List.length_take] at h
  omega

theorem chunk_length_le_input (r : Limited) : r.chunk.length ≤ r.input.length := by
  have h := (takeThrough_isPrefix lf (r.input.take r.limit)).length_le
  unfold chunk
  rw [List.length_take] at h
  omega

end Limited

theorem readLine_ok {r rest : Limited} {read : ℕ} {line : List Char}
    (h : readLine r = (.ok (read, line), rest)) :
    read = r.chunk.length ∧ rest = ⟨r.limit - r.chunk.length, r.input.drop r.chunk.length⟩ := by
  unfold readLine at h
  dsimp only at h
  split at h
  · cases h
    exact ⟨rfl, rfl⟩
  · cases h

/-- The line that was read is what its bytes say. -/
theorem readLine_ok_chunk {r rest : Limited} {read : ℕ} {line : List Char}
    (h : readLine r = (.ok (read, line), rest)) : r.chunk = encodeUtf8 line := by
  apply encode_of_decode
  unfold readLine at h
  dsimp only at h
  split at h
  · rename_i hdecode
    cases h
    exact hdecode
  · cases h

/-- A line that fits is read whole, whatever bytes follow it. -/
theorem readLine_fits {line : List Char} {rest : List UInt8} {limit : ℕ} (hline : '\n' ∉ line)
    (hfits : (encodeUtf8 line).length + 1 ≤ limit) :
    readLine ⟨limit, encodeUtf8 line ++ lf :: rest⟩ =
      (.ok ((encodeUtf8 line).length + 1, line ++ ['\n']),
        ⟨limit - ((encodeUtf8 line).length + 1), rest⟩) := by
  have hno : lf ∉ encodeUtf8 line := fun h => hline (lf_mem_encodeUtf8.mp h)
  have hchunk : (⟨limit, encodeUtf8 line ++ lf :: rest⟩ : Limited).chunk =
      encodeUtf8 (line ++ ['\n']) := by
    obtain ⟨m, hm⟩ : ∃ m, limit = (encodeUtf8 line).length + (m + 1) :=
      ⟨limit - (encodeUtf8 line).length - 1, by omega⟩
    unfold Limited.chunk
    dsimp only
    rw [hm, List.take_length_add_append, List.take_succ_cons, takeThrough_append hno,
      encodeUtf8_append, encodeUtf8_lf]
  have hlength : (encodeUtf8 (line ++ ['\n'])).length = (encodeUtf8 line).length + 1 := by simp
  unfold readLine
  rw [hchunk, decode_encode, hlength]
  dsimp only
  rw [List.drop_length_add_append]
  rfl

/-- At the end of the input the rest of it is a line without a line feed. -/
theorem readLine_tail {tail : List Char} {limit : ℕ} (htail : '\n' ∉ tail)
    (hfits : (encodeUtf8 tail).length ≤ limit) :
    readLine ⟨limit, encodeUtf8 tail⟩ =
      (.ok ((encodeUtf8 tail).length, tail), ⟨limit - (encodeUtf8 tail).length, []⟩) := by
  have hchunk : (⟨limit, encodeUtf8 tail⟩ : Limited).chunk = encodeUtf8 tail := by
    unfold Limited.chunk
    dsimp only
    rw [List.take_of_length_le hfits]
    exact takeThrough_of_notMem (fun h => htail (lf_mem_encodeUtf8.mp h))
  unfold readLine
  rw [hchunk, decode_encode]
  simp

/-- At the end of the input there is no line. -/
theorem readLine_nil (limit : ℕ) : readLine ⟨limit, []⟩ = (.ok (0, []), ⟨limit, []⟩) := by
  have h := @readLine_tail [] limit (by simp) (by simp)
  exact h

/-- Where the limit comes before any line feed, it is used up: the bytes up to it are no
UTF-8, or a line without a line feed. -/
theorem readLine_capped {input : List UInt8} {limit : ℕ} (hno : lf ∉ input.take limit)
    (hmore : limit ≤ input.length) :
    readLine ⟨limit, input⟩ =
      (match decodeUtf8 (input.take limit) with
      | some line => .ok (limit, line)
      | none => .error invalidUtf8, ⟨0, input.drop limit⟩) := by
  have hchunk : (⟨limit, input⟩ : Limited).chunk = input.take limit :=
    takeThrough_of_notMem hno
  have hlength : (input.take limit).length = limit := by simp [hmore]
  unfold readLine
  rw [hchunk, hlength]
  dsimp only
  rw [Nat.sub_self]
  cases decodeUtf8 (input.take limit) <;> rfl

end PostfixRatelimitd
