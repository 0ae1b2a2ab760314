import Mathlib.Data.List.Infix
import Mathlib.Data.List.Flatten

/-!
# Reading one thing after another

A reader takes the next thing from what is left of its input, or cannot. What it has read so
far and what is left are determined by the input and by how often it read, and a thing that is
encoded so that the reader takes exactly it is read back in any run of such things.
-/
namespace PostfixRatelimitd

variable {ρ α β : Type*}

/-- From `input` these things are read, oldest first, and this is left. -/
inductive Reads (read : ρ → Option (α × ρ)) (input : ρ) : List α → ρ → Prop
  | none : Reads read input [] input
  | one {xs : List α} {x : α} {left rest : ρ} : Reads read input xs left →
      read left = some (x, rest) → Reads read input (xs ++ [x]) rest

namespace Reads
variable {read : ρ → Option (α × ρ)} {input left left' : ρ} {xs ys : List α}

theorem first {x : α} {rest : ρ} (hread : read input = some (x, rest))
    (h : Reads read rest xs left) :
    Reads read input (x :: xs) left := by
  induction h with
  | none => exact Reads.one .none hread
  | one _ hlast ih => exact ih.one hlast

theorem snoc_inv {x : α} (h : Reads read input (xs ++ [x]) left) :
    ∃ middle, Reads read input xs middle ∧ read middle = some (x, left) := by
  generalize hzs : xs ++ [x] = zs at h
  cases h with
  | none => simp at hzs
  | one hbefore hread =>
    obtain ⟨rfl, hx⟩ := List.append_inj' hzs rfl
    obtain rfl := List.singleton_inj.mp hx
    exact ⟨_, hbefore, hread⟩

/-- Two readers of one input that read equally often read the same. -/
theorem unique (h : Reads read input xs left) : ∀ {ys : List α} {left' : ρ},
    Reads read input ys left' → xs.length = ys.length → xs = ys ∧ left = left' := by
  induction h with
  | none =>
    intro ys left' h' hlength
    cases h' with
    | none => exact ⟨rfl, rfl⟩
    | one => simp at hlength
  | one hbefore hread ih =>
    intro ys left' h' hlength
    cases h' with
    | none => simp at hlength
    | one hbefore' hread' =>
      obtain ⟨rfl, rfl⟩ := ih hbefore' (by simpa using hlength)
      rw [hread] at hread'
      obtain ⟨rfl, rfl⟩ := Prod.mk.inj (Option.some.inj hread')
      exact ⟨rfl, rfl⟩

/-- What was read earlier was read by any reader that got as far. -/
theorem take (h : Reads read input xs left) (n : ℕ) :
    ∃ middle, Reads read input (xs.take n) middle := by
  induction h with
  | none => exact ⟨_, by simpa using Reads.none⟩
  | @one xs x left rest hbefore hread ih =>
    rcases Nat.lt_or_ge n (xs ++ [x]).length with hless | hmore
    · rw [List.take_append_of_le_length (by simp at hless; omega)]
      exact ih
    · rw [List.take_of_length_le hmore]
      exact ⟨_, hbefore.one hread⟩

/-- Where nothing more can be read, everything was. -/
theorem isPrefix_of_end (h : Reads read input xs left) (hend : Reads read input ys left')
    (hstop : read left' = Option.none) : xs <+: ys := by
  rcases Nat.le_total xs.length ys.length with hle | hle
  · obtain ⟨middle, hfirst⟩ := hend.take xs.length
    obtain ⟨hsame, _⟩ := h.unique hfirst (List.length_take_of_le hle).symm
    rw [hsame]
    exact List.take_prefix _ _
  · rcases hle.lt_or_eq with hless | heq
    · obtain ⟨middle, hmore⟩ := h.take (ys.length + 1)
      have hlength : (xs.take (ys.length + 1)).length = ys.length + 1 := by
        rw [List.length_take]
        omega
      obtain ⟨zs, z, hzs⟩ : ∃ zs z, xs.take (ys.length + 1) = zs ++ [z] :=
        ⟨_, _, (List.dropLast_append_getLast (List.ne_nil_of_length_pos (by omega))).symm⟩
      rw [hzs] at hmore hlength
      obtain ⟨middle', hbefore, hread⟩ := hmore.snoc_inv
      obtain ⟨_, rfl⟩ := hbefore.unique hend (by simpa using hlength)
      rw [hstop] at hread
      cases hread
    · obtain ⟨rfl, _⟩ := h.unique hend heq.symm
      exact List.prefix_rfl

end Reads

theorem getElem?_of_isPrefix {xs ys : List α} {k : ℕ} {x : α} (h : xs <+: ys)
    (hx : xs[k]? = some x) :
    ys[k]? = some x := by
  obtain ⟨zs, rfl⟩ := h
  obtain ⟨hlt, _⟩ := List.getElem?_eq_some_iff.mp hx
  rw [List.getElem?_append_left hlt, hx]

/-- Things written one after another, each so that the reader takes exactly it. -/
theorem Reads.of_encode {β γ : Type*} {read : List β → Option (α × List β)} {encode : γ → List β}
    {decode : γ → α} {cs : List γ}
    (h : ∀ c ∈ cs, ∀ rest, read (encode c ++ rest) = some (decode c, rest)) (rest : List β) :
    Reads read (cs.flatMap encode ++ rest) (cs.map decode) rest := by
  induction cs with
  | nil => exact .none
  | cons c cs ih =>
    obtain ⟨hc, hcs⟩ := List.forall_mem_cons.mp h
    rw [List.flatMap_cons, List.append_assoc]
    exact .first (hc _) (ih hcs)

end PostfixRatelimitd
