import Mathlib.Tactic.Basic

/-!
# Runs of a transition system

A system is a partial function from a state and an action to the next state; any
interleaving of its parties is a list of actions. Runs may be restricted to steps that
meet a condition on the state before and the action. An invariant is established at
the start and preserved by each such step; a concrete run is replayed by evaluation.
What is observed along a run is recorded beside the state, newest first.
-/
namespace PostfixRatelimitd

variable {σ α : Type*}

/-- The states that runs from `start` reach when every step meets `ok`. -/
inductive Reachable (next : σ → α → Option σ) (ok : σ → α → Bool) (start : σ) : σ → Prop
  | start : Reachable next ok start start
  | step {s s' : σ} {a : α} : Reachable next ok start s → ok s a → next s a = some s' →
      Reachable next ok start s'

namespace Reachable
variable {next : σ → α → Option σ} {ok : σ → α → Bool} {start s : σ}

/-- What holds at the start and is preserved by each step holds in every reachable state. -/
theorem invariant {inv : σ → Prop} (hstart : inv start)
    (hstep : ∀ s a s', inv s → ok s a → next s a = some s' → inv s')
    (h : Reachable next ok start s) : inv s := by
  induction h with
  | start => exact hstart
  | step _ hok hnext ih => exact hstep _ _ _ ih hok hnext

end Reachable

/-- Runs of a system are runs of one that it refines: each of its steps is a step of the
other, or changes nothing there. -/
theorem Reachable.refines {τ β : Type*} {next : σ → α → Option σ} {ok : σ → α → Bool}
    {next' : τ → β → Option τ} {ok' : τ → β → Bool} {start s : σ} (abs : σ → τ)
    (hstep : ∀ s a s', ok s a → next s a = some s' →
      abs s' = abs s ∨ ∃ b, ok' (abs s) b ∧ next' (abs s) b = some (abs s'))
    (h : Reachable next ok start s) : Reachable next' ok' (abs start) (abs s) := by
  induction h with
  | start => exact .start
  | step _ hok hnext ih =>
    rcases hstep _ _ _ hok hnext with hquiet | ⟨b, hok', hnext'⟩
    · rw [hquiet]
      exact ih
    · exact ih.step hok' hnext'

/-- Take the steps of a list one after another, as long as each is allowed and enabled. -/
def replay (next : σ → α → Option σ) (ok : σ → α → Bool) (s : σ) : List α → Option σ
  | [] => some s
  | a :: rest => if ok s a then (next s a).bind (fun s' => replay next ok s' rest) else none

theorem Reachable.of_replay {next : σ → α → Option σ} {ok : σ → α → Bool} {start s t : σ}
    (h : Reachable next ok start s) (actions : List α)
    (hreplay : replay next ok s actions = some t) :
    Reachable next ok start t := by
  induction actions generalizing s with
  | nil =>
    obtain rfl : s = t := Option.some.inj hreplay
    exact h
  | cons a rest ih =>
    unfold replay at hreplay
    split at hreplay
    · rename_i hok
      obtain ⟨s', hnext, hrest⟩ := Option.bind_eq_some_iff.mp hreplay
      exact ih (h.step hok hnext) hrest
    · cases hreplay

theorem replay_cons {next : σ → α → Option σ} {ok : σ → α → Bool} {s s' : σ} {a : α}
    (hok : ok s a = true) (hnext : next s a = some s') (rest : List α) :
    replay next ok s (a :: rest) = replay next ok s' rest := by
  rw [replay, if_pos hok, hnext, Option.bind_some]

theorem replay_trans {next : σ → α → Option σ} {ok : σ → α → Bool} {s s' s'' : σ}
    {actions rest : List α} (h : replay next ok s actions = some s')
    (h' : replay next ok s' rest = some s'') : replay next ok s (actions ++ rest) = some s'' := by
  induction actions generalizing s with
  | nil =>
    obtain rfl : s = s' := Option.some.inj h
    exact h'
  | cons a actions ih =>
    rw [List.cons_append]
    rw [replay] at h ⊢
    by_cases hok : ok s a = true
    · rw [if_pos hok] at h ⊢
      obtain ⟨t, hnext, hrest⟩ := Option.bind_eq_some_iff.mp h
      rw [hnext, Option.bind_some]
      exact ih hrest
    · rw [if_neg hok] at h
      cases h

/-- The system with a record of what its steps let be observed. -/
def recording {β : Type*} (next : σ → α → Option σ) (observe : σ → α → List β) (x : σ × List β)
    (a : α) : Option (σ × List β) :=
  (next x.1 a).map (fun s' => (s', observe x.1 a ++ x.2))

theorem recording_eq_some {β : Type*} {next : σ → α → Option σ} {observe : σ → α → List β}
    {x x' : σ × List β} {a : α} (h : recording next observe x a = some x') :
    next x.1 a = some x'.1 ∧ x'.2 = observe x.1 a ++ x.2 := by
  obtain ⟨s', hnext, rfl⟩ := Option.map_eq_some_iff.mp h
  exact ⟨hnext, rfl⟩

theorem replay_of_recording {β : Type*} {next : σ → α → Option σ} {observe : σ → α → List β}
    {ok : σ → α → Bool} {x x' : σ × List β} {actions : List α}
    (h : replay (recording next observe) (fun x a => ok x.1 a) x actions = some x') :
    replay next ok x.1 actions = some x'.1 := by
  induction actions generalizing x with
  | nil =>
    obtain rfl : x = x' := Option.some.inj h
    rfl
  | cons a actions ih =>
    rw [replay] at h ⊢
    by_cases hok : ok x.1 a = true
    · rw [if_pos hok] at h ⊢
      obtain ⟨y, hnext, hrest⟩ := Option.bind_eq_some_iff.mp h
      rw [(recording_eq_some hnext).1]
      exact ih hrest
    · rw [if_neg hok] at h
      cases h

/-- Steps that are observed as themselves are recorded as such. -/
theorem replay_recording_self {next : σ → α → Option σ} {observe : σ → α → List α}
    {ok : σ → α → Bool} {s s' : σ} {actions : List α}
    (hself : ∀ a ∈ actions, ∀ s, observe s a = [a]) (h : replay next ok s actions = some s')
    (log : List α) : replay (recording next observe) (fun x a => ok x.1 a) (s, log) actions =
      some (s', actions.reverse ++ log) := by
  induction actions generalizing s log with
  | nil =>
    obtain rfl : s = s' := Option.some.inj h
    rfl
  | cons a actions ih =>
    rw [replay] at h ⊢
    by_cases hok : ok s a = true
    · rw [if_pos hok] at h ⊢
      obtain ⟨t, hnext, hrest⟩ := Option.bind_eq_some_iff.mp h
      rw [recording, hnext, hself a (List.mem_cons_self) s, Option.map_some, Option.bind_some,
        ih (fun b hb => hself b (List.mem_cons_of_mem _ hb)) hrest, List.reverse_cons,
        List.append_assoc]
    · rw [if_neg hok] at h
      cases h

/-- Recording restricts no run. -/
theorem Reachable.recorded {β : Type*} {next : σ → α → Option σ} {ok : σ → α → Bool} {start s : σ}
    (observe : σ → α → List β) (h : Reachable next ok start s) :
    ∃ log, Reachable (recording next observe) (fun x a => ok x.1 a) (start, []) (s, log) := by
  induction h with
  | start => exact ⟨[], .start⟩
  | @step s s' a _ hok hnext ih =>
    obtain ⟨log, hrun⟩ := ih
    refine ⟨observe s a ++ log, hrun.step hok ?_⟩
    unfold recording
    rw [hnext]
    rfl

end PostfixRatelimitd
