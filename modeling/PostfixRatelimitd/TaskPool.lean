import PostfixRatelimitd.Transition
import Mathlib.Algebra.BigOperators.Group.List.Basic
import Mathlib.Data.Nat.Cast.Basic
import Mathlib.Tactic.Abel

/-!
# Totals over a pool of tasks

A pool is a list of tasks; each step replaces one, adds one or removes one. A total over
the pool changes by what the one task contributes, so an account that each step keeps for
its own task is kept by the pool. A quantity that each step changes by what is observed of
the step is at any time what the observations of the run add up to.
-/
namespace PostfixRatelimitd.TaskPool

variable {α M : Type*} [AddCommMonoid M]

/-- What all tasks contribute together. -/
def total (weight : α → M) (tasks : List α) : M := (tasks.map weight).sum

@[simp] theorem total_nil (weight : α → M) : total weight [] = 0 := rfl

@[simp] theorem total_cons (weight : α → M) (task : α) (tasks : List α) :
    total weight (task :: tasks) = weight task + total weight tasks := List.sum_cons

@[simp] theorem total_append (weight : α → M) (tasks tasks' : List α) :
    total weight (tasks ++ tasks') = total weight tasks + total weight tasks' := by
  unfold total
  rw [List.map_append, List.sum_append]

theorem total_set (weight : α → M) {tasks : List α} {i : ℕ} {task : α} (h : tasks[i]? = some task)
    (task' : α) :
    total weight (tasks.set i task') + weight task = total weight tasks + weight task' := by
  induction tasks generalizing i with
  | nil => simp at h
  | cons first tasks ih =>
    cases i with
    | zero =>
      obtain rfl : first = task := by simpa using h
      simp only [List.set_cons_zero, total_cons]
      abel
    | succ i =>
      simp only [List.set_cons_succ, total_cons]
      rw [add_assoc, ih (by simpa using h), add_assoc]

theorem total_eraseIdx (weight : α → M) {tasks : List α} {i : ℕ} {task : α}
    (h : tasks[i]? = some task) :
    total weight (tasks.eraseIdx i) + weight task = total weight tasks := by
  induction tasks generalizing i with
  | nil => simp at h
  | cons first tasks ih =>
    cases i with
    | zero =>
      obtain rfl : first = task := by simpa using h
      simp only [List.eraseIdx_cons_zero, total_cons]
      abel
    | succ i =>
      simp only [List.eraseIdx_cons_succ, total_cons]
      rw [add_assoc, ih (by simpa using h)]

/-- A total of ones is a count. -/
theorem total_indicator {N : Type*} [AddCommMonoidWithOne N] (p : α → Bool) (tasks : List α) :
    total (fun task => if p task then (1 : N) else 0) tasks = (tasks.countP p : N) := by
  induction tasks with
  | nil => exact Nat.cast_zero.symm
  | cons first tasks ih =>
    rw [total_cons, ih, List.countP_cons, Nat.cast_add, Nat.cast_ite, Nat.cast_one, Nat.cast_zero,
      add_comm]

theorem total_indicator_nat (p : α → Bool) (tasks : List α) :
    total (fun task => if p task then 1 else 0) tasks = tasks.countP p :=
  (total_indicator p tasks).trans (Nat.cast_id _)

/-- What a step leaves of its task is left of the pool. -/
theorem map_set {β : Type*} {f : α → β} {tasks : List α} {i : ℕ} {task task' : α}
    (h : tasks[i]? = some task) (hf : f task' = f task) :
    (tasks.set i task').map f = tasks.map f := by
  induction tasks generalizing i with
  | nil => rfl
  | cons first tasks ih =>
    cases i with
    | zero =>
      obtain rfl : first = task := by simpa using h
      rw [List.set_cons_zero, List.map_cons, List.map_cons, hf]
    | succ i => rw [List.set_cons_succ, List.map_cons, List.map_cons, ih (by simpa using h)]

/-- What holds of every task still does when the step's own task keeps it. -/
theorem forall_set {P : α → Prop} {tasks : List α} (h : ∀ task ∈ tasks, P task) (i : ℕ) {task' : α}
    (htask : P task') : ∀ task ∈ tasks.set i task', P task := by
  intro task hmem
  rcases List.mem_or_eq_of_mem_set hmem with hold | rfl
  · exact h task hold
  · exact htask

theorem forall_snoc {P : α → Prop} {tasks : List α} (h : ∀ task ∈ tasks, P task) {task' : α}
    (htask : P task') : ∀ task ∈ tasks ++ [task'], P task := by
  intro task hmem
  rcases List.mem_append.mp hmem with hold | hnew
  · exact h task hold
  · exact List.mem_singleton.mp hnew ▸ htask

theorem forall_eraseIdx {P : α → Prop} {tasks : List α} (h : ∀ task ∈ tasks, P task) (i : ℕ) :
    ∀ task ∈ tasks.eraseIdx i, P task :=
  fun task hmem => h task (List.mem_of_mem_eraseIdx hmem)

end PostfixRatelimitd.TaskPool

namespace PostfixRatelimitd
open TaskPool

/-- What each step adds and takes, by what is observed of it, is all that a run adds and takes. -/
theorem Reachable.balance {σ α β M : Type*} [AddCommMonoid M] {next : σ → α → Option σ}
    {ok : σ → α → Bool} {observe : σ → α → List β} {start s : σ} {log : List β} (potential : σ → M)
    (gain loss : β → M) (hstart : potential start = 0)
    (hstep : ∀ s a s', ok s a → next s a = some s' →
      potential s' + total loss (observe s a) = potential s + total gain (observe s a))
    (h : Reachable (recording next observe) (fun x a => ok x.1 a) (start, []) (s, log)) :
    potential s + total loss log = total gain log := by
  refine @Reachable.invariant _ _ _ _ _ _
    (fun x => potential x.1 + total loss x.2 = total gain x.2) ?_ ?_ h
  · simp [hstart]
  · intro x a x' hbalance hok hnext
    obtain ⟨hstep', hlog⟩ := recording_eq_some hnext
    rw [hlog, total_append, total_append, ← add_assoc, hstep x.1 a x'.1 hok hstep', ← hbalance]
    abel

end PostfixRatelimitd
