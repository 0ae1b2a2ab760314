import Mathlib.Order.Defs.LinearOrder
import Mathlib.Tactic.Basic

/-!
# A key space whose entries expire

Every key holds at most one cell, a value with an optional deadline. A cell is read
as absent once its deadline has passed. Updates are pointwise, so what an update does
at other keys is one frame lemma.
-/
namespace PostfixRatelimitd

variable {κ ν τ : Type*}

/-- A stored value and the last instant at which it can be read. -/
structure Cell (ν τ : Type*) where
  value : ν
  deadline : Option τ

/-- A cell with no deadline never expires. -/
def Cell.expired [LT τ] [DecidableLT τ] (c : Cell ν τ) (now : τ) : Bool :=
  match c.deadline with
  | none => false
  | some d => decide (d < now)

def Keyspace (κ ν τ : Type*) := κ → Option (Cell ν τ)

namespace Keyspace

def empty : Keyspace κ ν τ := fun _ => none

section Read
variable [LT τ] [DecidableLT τ]

/-- What a command issued at `now` finds under the key. -/
def read (ks : Keyspace κ ν τ) (now : τ) (k : κ) : Option (Cell ν τ) :=
  (ks k).filter (fun c => !c.expired now)

@[simp] theorem read_empty (now : τ) (k : κ) :
    (empty : Keyspace κ ν τ).read now k = none := rfl

theorem read_congr {ks ks' : Keyspace κ ν τ} {k : κ} (h : ks k = ks' k) (now : τ) :
    ks.read now k = ks'.read now k := by
  rw [read, read, h]

theorem stored_of_read {ks : Keyspace κ ν τ} {now : τ} {k : κ} {c : Cell ν τ}
    (h : ks.read now k = some c) : ks k = some c :=
  (Option.filter_eq_some_iff.mp h).1

/-- A cell that was read has not expired, and neither has a value stored under its
deadline. -/
theorem live_of_read (ks : Keyspace κ ν τ) (now : τ) (k : κ) (v : ν) :
    Cell.expired ⟨v, (ks.read now k).bind Cell.deadline⟩ now = false := by
  cases h : ks.read now k with
  | none => rfl
  | some c =>
    have hlive : (!c.expired now) = true := (Option.filter_eq_some_iff.mp h).2
    simpa [Cell.expired] using hlive

end Read

section Write
variable [DecidableEq κ]

def write (ks : Keyspace κ ν τ) (k : κ) (c : Option (Cell ν τ)) : Keyspace κ ν τ :=
  fun k' => if k' = k then c else ks k'

@[simp] theorem write_self (ks : Keyspace κ ν τ) (k : κ) (c : Option (Cell ν τ)) :
    ks.write k c k = c := if_pos rfl

theorem write_of_ne (ks : Keyspace κ ν τ) {k k' : κ} (h : k' ≠ k) (c : Option (Cell ν τ)) :
    ks.write k c k' = ks k' := if_neg h

@[simp] theorem write_write (ks : Keyspace κ ν τ) (k : κ) (c c' : Option (Cell ν τ)) :
    (ks.write k c).write k c' = ks.write k c' := by
  funext k'
  by_cases h : k' = k <;> simp [write, h]

variable [LT τ] [DecidableLT τ]

@[simp] theorem read_write_self (ks : Keyspace κ ν τ) (k : κ) (c : Option (Cell ν τ)) (now : τ) :
    (ks.write k c).read now k = c.filter (fun x => !x.expired now) := by
  rw [read, write_self]

theorem read_write_live (ks : Keyspace κ ν τ) (k : κ) {c : Cell ν τ} {now : τ}
    (h : c.expired now = false) : (ks.write k (some c)).read now k = some c := by
  simp [Option.filter, h]

end Write

end Keyspace
end PostfixRatelimitd
