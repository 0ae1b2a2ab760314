import PostfixRatelimitd.Tally
import PostfixRatelimitd.Keyspace
import Mathlib.Tactic.Linarith
import Mathlib.Tactic.SplitIfs
import Mathlib.Data.Int.Order.Basic

/-!
# The redis commands the daemon issues

The database maps keys to hashes of integer fields with integer values, each key with
an optional expiry in milliseconds. A script runs at one instant; its commands share
that clock. A failing command leaves behind what the script wrote before it, so
scripts are state passing with an error that keeps the state.
-/
namespace PostfixRatelimitd

/-- The server's clock. The server counts microseconds in a signed 64-bit integer. -/
structure Clock where
  micros : ℕ
  micros_lt : micros < 2 ^ 63
  deriving DecidableEq, Repr

namespace Clock

/-- Expiry is decided on this reading. -/
def millis (c : Clock) : ℕ := c.micros / 1000

/-- The first element of a TIME reply. -/
def secs (c : Clock) : ℕ := c.micros / 1000000

instance : LE Clock := ⟨fun a b => a.micros ≤ b.micros⟩

theorem le_iff {a b : Clock} : a ≤ b ↔ a.micros ≤ b.micros := Iff.rfl

instance (a b : Clock) : Decidable (a ≤ b) := decidable_of_iff _ le_iff.symm

theorem le_refl (a : Clock) : a ≤ a := Nat.le_refl a.micros

theorem secs_mono {a b : Clock} (h : a ≤ b) : a.secs ≤ b.secs := Nat.div_le_div_right h

theorem secs_eq (c : Clock) : c.secs = c.millis / 1000 := by
  unfold secs millis
  omega

theorem secs_lt (c : Clock) : c.secs < 2 ^ 53 := by
  have := c.micros_lt
  unfold secs
  omega

end Clock

/-- What a command or the script around it can fail with. -/
inductive ScriptError
  | wrongNumberOfArguments
  | incrementOverflow
  | invalidExpireTime
  /-- the script uses a missing table element as a number, a key or a table -/
  | nilValue
  deriving DecidableEq, Repr

abbrev Hash := Tally ℤ ℤ

abbrev Db := Keyspace String Hash ℕ

/-- The hash a command finds under a key; a missing key is an empty hash. -/
def Db.view (db : Db) (clock : Clock) (key : String) : Hash :=
  match db.read clock.millis key with
  | some cell => cell.value
  | none => .empty

/-- A script or command acting on the database. -/
abbrev Script := EStateM ScriptError Db

def i64Max : ℤ := 2 ^ 63 - 1
def i64Min : ℤ := -2 ^ 63

/-- TIME: seconds, and the microseconds within the second. -/
def time (clock : Clock) : ℕ × ℕ := (clock.secs, clock.micros % 1000000)

def hgetall (clock : Clock) (key : String) : Script (List (ℤ × ℤ)) := fun db =>
  .ok (db.view clock key).entries db

/-- HINCRBY keeps the expiry of a key that is there and creates one without. -/
def hincrby (clock : Clock) (key : String) (field increment : ℤ) : Script ℤ := fun db =>
  let hash := db.view clock key
  let value := (hash.find? field).getD 0 + increment
  if value < i64Min ∨ i64Max < value then .error .incrementOverflow db
  else
    let deadline := (db.read clock.millis key).bind Cell.deadline
    .ok value (db.write key (some ⟨hash.add field increment, deadline⟩))

/-- EXPIRE: the deadline is absolute, in milliseconds; one that is not in the future
deletes the key. -/
def expire (clock : Clock) (key : String) (seconds : ℤ) : Script ℤ := fun db =>
  if seconds * 1000 < i64Min ∨ i64Max < seconds * 1000 + clock.millis then
    .error .invalidExpireTime db
  else
    match db.read clock.millis key with
    | none => .ok 0 db
    | some cell =>
      if seconds ≤ 0 then .ok 1 (db.write key none)
      else
        .ok 1 (db.write key (some ⟨cell.value, some (clock.millis + 1000 * seconds.toNat)⟩))

/-- HDEL wants at least one field; the last field takes the key with it. -/
def hdel (clock : Clock) (key : String) (fields : List ℤ) : Script ℕ := fun db =>
  if fields = [] then .error .wrongNumberOfArguments db
  else
    match db.read clock.millis key with
    | none => .ok 0 db
    | some cell =>
      let kept := cell.value.erase fields
      let cell' := if kept.entries = [] then none else some ⟨kept, cell.deadline⟩
      .ok (cell.value.entries.length - kept.entries.length) (db.write key cell')

@[simp] theorem run_hgetall (clock : Clock) (key : String) (db : Db) :
    (hgetall clock key).run db = .ok (db.view clock key).entries db := rfl

namespace Db

@[simp] theorem view_empty (clock : Clock) (key : String) :
    view Keyspace.empty clock key = .empty := rfl

/-- What holds of the empty hash and of what is stored holds of what is read. -/
theorem view_of_stored {P : Hash → Prop} {db : Db} {key : String} (hempty : P .empty)
    (hstored : ∀ cell, db key = some cell → P cell.value) (clock : Clock) :
    P (db.view clock key) := by
  unfold view
  cases hread : db.read clock.millis key with
  | none => exact hempty
  | some cell => exact hstored cell (Keyspace.stored_of_read hread)

theorem view_congr {db db' : Db} {key : String} (h : db key = db' key) (clock : Clock) :
    db.view clock key = db'.view clock key := by
  rw [view, view, Keyspace.read_congr h]

/-- A key with a deadline is read as its hash up to the deadline and as empty after. -/
theorem view_of_deadline {db : Db} {clock : Clock} {key : String} {h : Hash} {d : ℕ}
    (hk : db key = some ⟨h, some d⟩) :
    db.view clock key = if d < clock.millis then .empty else h := by
  unfold view Keyspace.read
  rw [hk]
  by_cases hd : d < clock.millis <;> simp [Option.filter, Cell.expired, hd]

end Db

/-- Within range, HINCRBY only grows the one field. -/
theorem run_hincrby (clock : Clock) (key : String) (field increment : ℤ) (db : Db)
    (hlow : 0 ≤ ((db.view clock key).find? field).getD 0 + increment)
    (hhigh : ((db.view clock key).find? field).getD 0 + increment ≤ i64Max) :
    (hincrby clock key field increment).run db =
      .ok (((db.view clock key).find? field).getD 0 + increment)
        (db.write key (some ⟨(db.view clock key).add field increment,
          (db.read clock.millis key).bind Cell.deadline⟩)) := by
  have hin : ¬(((db.view clock key).find? field).getD 0 + increment < i64Min ∨
      i64Max < ((db.view clock key).find? field).getD 0 + increment) := by
    unfold i64Min
    omega
  exact if_neg hin

/-- A positive expiry in range replaces the deadline of a key that is there. -/
theorem run_expire {clock : Clock} {key : String} (seconds : ℕ) {db : Db} {cell : Cell Hash ℕ}
    (hpos : 0 < seconds) (hsmall : seconds ≤ 10000000)
    (hread : db.read clock.millis key = some cell) :
    (expire clock key seconds).run db =
      .ok 1 (db.write key (some ⟨cell.value, some (clock.millis + 1000 * seconds)⟩)) := by
  have hclock := clock.micros_lt
  have hin : ¬((seconds : ℤ) * 1000 < i64Min ∨ i64Max < (seconds : ℤ) * 1000 + clock.millis) := by
    unfold i64Min i64Max Clock.millis
    omega
  have hnonpos : ¬((seconds : ℤ) ≤ 0) := by omega
  show expire clock key seconds db = _
  simp only [expire, if_neg hin, hread, if_neg hnonpos, Int.toNat_natCast]

/-- HDEL of some fields that leaves others keeps the deadline. -/
theorem run_hdel {clock : Clock} {key : String} {fields : List ℤ} {db : Db} {cell : Cell Hash ℕ}
    (hsome : fields ≠ []) (hread : db.read clock.millis key = some cell)
    (hleft : (cell.value.erase fields).entries ≠ []) :
    (hdel clock key fields).run db =
      .ok (cell.value.entries.length - (cell.value.erase fields).entries.length)
        (db.write key (some ⟨cell.value.erase fields, cell.deadline⟩)) := by
  show hdel clock key fields db = _
  simp only [hdel, if_neg hsome, hread, if_neg hleft]

end PostfixRatelimitd
