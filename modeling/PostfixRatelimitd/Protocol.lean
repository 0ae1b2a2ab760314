import PostfixRatelimitd.ByteLines
import Mathlib.Algebra.Group.Nat.Defs
import Mathlib.Data.List.DropRight
import Mathlib.Logic.Function.Basic

/-!
# Policy delegation requests

A request is a block of `key=value` lines ended by a blank line. The reader is capped
once for the whole request. Carriage returns before a line feed are dropped, lines
without an equals sign are ignored, and a repeated key keeps its last value.
-/
namespace PostfixRatelimitd

def maxRequestBytes : ℕ := 64 * 1024

/-- One policy request: the map of its attributes. -/
structure Request where
  attributes : String → Option String

namespace Request

def exceededMaxSize : IoError := ⟨.invalidData, "policy request exceeded max size"⟩
def closedMidRequest : IoError := ⟨.unexpectedEof, "connection closed mid-request"⟩

/-- Drop the characters at the end that satisfy the predicate. -/
def trimEndMatches (p : Char → Bool) (text : List Char) : List Char := text.rdropWhile p

/-- The parts before and after the first occurrence of `c`. -/
def splitOnce (c : Char) : List Char → Option (List Char × List Char)
  | [] => none
  | x :: xs => if x = c then some ([], xs) else (splitOnce c xs).map (fun kv => (x :: kv.1, kv.2))

def isLineEnd (c : Char) : Bool := c == '\n' || c == '\r'

def insert (attributes : String → Option String) (key value : String) : String → Option String :=
  Function.update attributes key (some value)

/-- What a line that is not blank does to the attributes. -/
def insertLine (attributes : String → Option String) (trimmed : List Char) :
    String → Option String :=
  match splitOnce '=' trimmed with
  | some (key, value) => insert attributes (String.ofList key) (String.ofList value)
  | none => attributes

/-- The loop of `readFrom`; each pass uses up some of the cap. -/
def readLines (attributes : String → Option String) (limited : Limited) :
    Except IoError (Option Request) × Limited :=
  match _hread : readLine limited with
  | (.error e, rest) => (.error e, rest)
  | (.ok (read, line), rest) =>
    if _hzero : read = 0 then
      if rest.limit = 0 then (.error exceededMaxSize, rest) else (.ok none, rest)
    else if line.getLast? ≠ some '\n' then
      if rest.limit = 0 then (.error exceededMaxSize, rest) else (.error closedMidRequest, rest)
    else
      let trimmed := trimEndMatches isLineEnd line
      if trimmed.isEmpty then (.ok (some ⟨attributes⟩), rest)
      else readLines (insertLine attributes trimmed) rest
termination_by limited.limit
decreasing_by
  obtain ⟨rfl, hrest⟩ := readLine_ok _hread
  have := limited.chunk_length_le
  rw [hrest]
  dsimp only
  omega

/-- Read lines up to a blank one; none when the input ends first. Also returns what is
left of the input. -/
def readFrom (reader : List UInt8) : Except IoError (Option Request) × List UInt8 :=
  let r := readLines (fun _ => none) ⟨maxRequestBytes, reader⟩
  (r.1, r.2.input)

/-- The characters `str::trim` removes: Unicode's White_Space. -/
def isWhitespace (c : Char) : Bool :=
  let v := c.toNat
  (9 ≤ v && v ≤ 13) || v == 0x20 || v == 0x85 || v == 0xA0 || v == 0x1680 ||
    (0x2000 ≤ v && v ≤ 0x200A) || v == 0x2028 || v == 0x2029 || v == 0x202F || v == 0x205F ||
    v == 0x3000

def trim (s : String) : String :=
  String.ofList ((s.toList.dropWhile isWhitespace).rdropWhile isWhitespace)

/-- Unsigned decimal parsing: an optional plus sign, then digits, within 32 bits. -/
def parseU32 (s : String) : Option UInt32 :=
  let digits : List Char := match s.toList with
    | '+' :: rest => rest
    | cs => cs
  let value := digits.foldl (fun acc c => 10 * acc + (c.toNat - '0'.toNat)) 0
  if digits ≠ [] ∧ digits.all Char.isDigit ∧ value < 2 ^ 32 then some (UInt32.ofNat value) else none

/-- Postfix sends an empty name for unauthenticated sessions, so a blank one is absent. -/
def saslUsername (r : Request) : Option String :=
  ((r.attributes "sasl_username").map trim).filter (fun s => s ≠ "")

def recipientCount (r : Request) : Option UInt32 := (r.attributes "recipient_count").bind parseU32

def protocolState (r : Request) : Option String := r.attributes "protocol_state"

/-- Only a test build reads a time from the request. -/
def nowOverride (_ : Request) : Option ℕ := none

end Request

/-- The response to a policy request. -/
def writeAction (action : String) : List UInt8 := encodeUtf8 ("action=" ++ action ++ "\n\n").toList

end PostfixRatelimitd
