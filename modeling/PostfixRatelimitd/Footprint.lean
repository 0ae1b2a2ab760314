import PostfixRatelimitd.Keyspace

/-!
# The keys a program depends on

A program over a key space stays within a set of keys when it writes to no other key,
and when its outcome and what it leaves under those keys depend on nothing else. The
property composes along binds and loops, so it is proved once for each command.
-/
namespace PostfixRatelimitd

universe v

variable {κ ν τ ε α β : Type v}

namespace Keyspace

/-- Two key spaces that hold the same under every key of a set. -/
def AgreeOn (keys : κ → Prop) (ks ks' : Keyspace κ ν τ) : Prop := ∀ k, keys k → ks k = ks' k

theorem AgreeOn.refl (keys : κ → Prop) (ks : Keyspace κ ν τ) : AgreeOn keys ks ks := fun _ _ => rfl

theorem AgreeOn.symm {keys : κ → Prop} {ks ks' : Keyspace κ ν τ} (h : AgreeOn keys ks ks') :
    AgreeOn keys ks' ks := fun k hk => (h k hk).symm

theorem AgreeOn.trans {keys : κ → Prop} {ks ks' ks'' : Keyspace κ ν τ} (h : AgreeOn keys ks ks')
    (h' : AgreeOn keys ks' ks'') : AgreeOn keys ks ks'' := fun k hk => (h k hk).trans (h' k hk)

/-- What a program leaves behind, whether or not it failed. -/
def left : EStateM.Result ε (Keyspace κ ν τ) α → Keyspace κ ν τ
  | .ok _ ks => ks
  | .error _ ks => ks

/-- How a program ended. -/
def outcome : EStateM.Result ε (Keyspace κ ν τ) α → Except ε α
  | .ok a _ => .ok a
  | .error e _ => .error e

/-- Two runs that end alike as far as a set of keys can tell. -/
def Alike (keys : κ → Prop) (r r' : EStateM.Result ε (Keyspace κ ν τ) α) : Prop :=
  outcome r = outcome r' ∧ AgreeOn keys (left r) (left r')

structure Within (keys : κ → Prop) (program : EStateM ε (Keyspace κ ν τ) α) : Prop where
  frame : ∀ ks k, ¬keys k → left (program.run ks) k = ks k
  alike : ∀ ks ks', AgreeOn keys ks ks' → Alike keys (program.run ks) (program.run ks')

namespace Within
variable {keys : κ → Prop}

theorem pure (keys : κ → Prop) (a : α) :
    Within keys (Pure.pure a : EStateM ε (Keyspace κ ν τ) α) where
  frame _ _ _ := rfl
  alike _ _ h := ⟨rfl, h⟩

/-- The rest of a program may rely on what its first part returns. -/
theorem bind_of {program : EStateM ε (Keyspace κ ν τ) α} {rest : α → EStateM ε (Keyspace κ ν τ) β}
    (returns : α → Prop) (h : Within keys program)
    (hreturns : ∀ ks a ks', program.run ks = .ok a ks' → returns a)
    (hrest : ∀ a, returns a → Within keys (rest a)) : Within keys (program >>= rest) where
  frame ks k hk := by
    have hfirst := h.frame ks k hk
    rw [EStateM.run_bind]
    cases hr : program.run ks with
    | error e ks₁ =>
      rw [hr] at hfirst
      exact hfirst
    | ok a ks₁ =>
      rw [hr] at hfirst
      exact ((hrest a (hreturns ks a ks₁ hr)).frame ks₁ k hk).trans hfirst
  alike ks ks' hks := by
    obtain ⟨houtcome, hleft⟩ := h.alike ks ks' hks
    rw [EStateM.run_bind, EStateM.run_bind]
    cases hr : program.run ks with
    | error e ks₁ =>
      cases hr' : program.run ks' with
      | error e' ks₁' =>
        rw [hr, hr'] at houtcome hleft
        obtain rfl : e = e' := by simpa [outcome] using houtcome
        exact ⟨rfl, hleft⟩
      | ok a' ks₁' => simp [hr, hr', outcome] at houtcome
    | ok a ks₁ =>
      cases hr' : program.run ks' with
      | error e' ks₁' => simp [hr, hr', outcome] at houtcome
      | ok a' ks₁' =>
        rw [hr, hr'] at houtcome hleft
        obtain rfl : a = a' := by simpa [outcome] using houtcome
        exact (hrest a (hreturns ks a ks₁ hr)).alike ks₁ ks₁' hleft

theorem bind {program : EStateM ε (Keyspace κ ν τ) α} {rest : α → EStateM ε (Keyspace κ ν τ) β}
    (h : Within keys program) (hrest : ∀ a, Within keys (rest a)) :
    Within keys (program >>= rest) :=
  h.bind_of (fun _ => True) (fun _ _ _ _ => trivial) (fun a _ => hrest a)

theorem forM {xs : List β} {body : β → EStateM ε (Keyspace κ ν τ) PUnit}
    (h : ∀ x ∈ xs, Within keys (body x)) : Within keys (ForM.forM xs body) := by
  induction xs with
  | nil => exact pure keys _
  | cons x xs ih =>
    obtain ⟨hx, hxs⟩ := List.forall_mem_cons.mp h
    rw [List.forM_cons]
    exact hx.bind (fun _ => ih hxs)

theorem mapM {xs : List β} {body : β → EStateM ε (Keyspace κ ν τ) α}
    (h : ∀ x ∈ xs, Within keys (body x)) : Within keys (xs.mapM body) := by
  induction xs with
  | nil => exact pure keys _
  | cons x xs ih =>
    obtain ⟨hx, hxs⟩ := List.forall_mem_cons.mp h
    rw [List.mapM_cons]
    exact hx.bind (fun _ => (ih hxs).bind (fun _ => pure keys _))

/-- A command on one key: it looks at no other key and leaves every other key alone. -/
theorem command {k : κ} (hk : keys k) {program : EStateM ε (Keyspace κ ν τ) α}
    (hframe : ∀ ks k', k' ≠ k → left (program.run ks) k' = ks k')
    (hsame : ∀ ks ks', ks k = ks' k → outcome (program.run ks) = outcome (program.run ks') ∧
      left (program.run ks) k = left (program.run ks') k) : Within keys program where
  frame ks k' hk' := by
    apply hframe
    rintro rfl
    exact hk' hk
  alike ks ks' hks := by
    obtain ⟨houtcome, hkey⟩ := hsame ks ks' (hks k hk)
    refine ⟨houtcome, ?_⟩
    intro k' hk'
    by_cases h : k' = k
    · rw [h]
      exact hkey
    · rw [hframe ks k' h, hframe ks' k' h]
      exact hks k' hk'

end Within
end Keyspace
end PostfixRatelimitd
