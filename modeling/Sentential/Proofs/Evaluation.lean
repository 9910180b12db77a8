import Sentential.Formula.Evaluation

/-!
# Evaluation never runs short

Running the machine for some tasks and then for more is running it for all of them. So a run that
comes to its end has no misstep on its way, and before each task on the way the operands of the task
are on the stack. An operator is never applied to the wrong number of operands, even on stacks that
belong to no formula, since negation does not come to the application of a binary operator.
-/
namespace Sentential

namespace Machine

theorem run_zero (m : Machine) : run 0 m = .ok m := by
  obtain ⟨tasks, values⟩ := m
  cases tasks <;> rfl

theorem run_add (n k : Nat) (m : Machine) : run (n + k) m = (run n m).bind (run k) := by
  induction n generalizing m with
  | zero =>
    rw [Nat.zero_add, run_zero]
    rfl
  | succ n ih =>
    obtain ⟨tasks, values⟩ := m
    cases tasks with
    | nil =>
      rw [run_nil, run_nil]
      exact (run_nil k values).symm
    | cons task tasks =>
      rw [Nat.add_right_comm, run_cons, run_cons]
      cases perform tasks values task with
      | error misstep => rfl
      | ok next => exact ih next

variable {m final : Machine} {n k : Nat}

theorem run_add_of_ok (h : run n m = .ok final) : run (n + k) m = run k final := by
  rw [run_add, h]
  rfl

theorem exists_run_of_run_add (h : run (n + k) m = .ok final) : ∃ mid, run n m = .ok mid := by
  rw [run_add] at h
  cases hn : run n m with
  | error misstep =>
    rw [hn] at h
    cases h
  | ok mid => exact ⟨mid, rfl⟩

/-! ## Operands -/

theorem arity_le_of_perform {tasks : List Task} {values : List Bool} {op : Operator}
    (h : perform tasks values (.operator op) = .ok m) : op.arity ≤ values.length := by
  cases op with
  | negation =>
    cases values with
    | nil => cases h
    | cons a values => exact Nat.le_add_left 1 values.length
  | binary op =>
    rcases values with _ | ⟨b, _ | ⟨a, values⟩⟩
    · cases h
    · cases h
    · exact Nat.le_add_left 2 values.length

theorem arity_le_of_run {tasks : List Task} {values : List Bool} {op : Operator}
    (h : run 1 ⟨.operator op :: tasks, values⟩ = .ok m) : op.arity ≤ values.length := by
  rw [run_cons] at h
  cases hp : perform tasks values (.operator op) with
  | error misstep =>
    rw [hp] at h
    cases h
  | ok next => exact arity_le_of_perform hp

theorem perform_ne_arity (tasks : List Task) (values : List Bool) (task : Task)
    (e : ArityError) : perform tasks values task ≠ .error (.arity e) := by
  intro h
  rcases task with (value | body | ⟨op, lhs, rhs⟩) | (_ | op)
  · cases h
  · cases h
  · cases h
  · cases values <;> cases h
  · rcases values with _ | ⟨b, _ | ⟨a, values⟩⟩ <;> cases h

theorem run_ne_arity (n : Nat) (m : Machine) (e : ArityError) :
    run n m ≠ .error (.arity e) := by
  induction n generalizing m with
  | zero =>
    rw [run_zero]
    exact nofun
  | succ n ih =>
    obtain ⟨tasks, values⟩ := m
    cases tasks with
    | nil =>
      rw [run_nil]
      exact nofun
    | cons task tasks =>
      rw [run_cons]
      cases hp : perform tasks values task with
      | error misstep =>
        intro h
        rw [Except.error.inj h] at hp
        exact perform_ne_arity tasks values task e hp
      | ok next => exact ih next

end Machine

namespace Formula

theorem exists_run_machine (f : Formula Bool) (n : Nat) :
    ∃ m, f.machine.run n = .ok m := by
  rcases Nat.le_total n (f.tasksOnto 0) with h | h
  · obtain ⟨k, hk⟩ := Nat.exists_eq_add_of_le h
    have hend := run_machine f
    rw [hk] at hend
    exact Machine.exists_run_of_run_add hend
  · obtain ⟨k, rfl⟩ := Nat.exists_eq_add_of_le h
    rw [Machine.run_add_of_ok (run_machine f)]
    exact ⟨_, Machine.run_nil k _⟩

theorem arity_le_of_run_machine {f : Formula Bool} {n : Nat} {op : Operator} {tasks : List Task}
    {values : List Bool} (h : f.machine.run n = .ok ⟨.operator op :: tasks, values⟩) :
    op.arity ≤ values.length := by
  obtain ⟨next, hnext⟩ := exists_run_machine f (n + 1)
  rw [Machine.run_add_of_ok h] at hnext
  exact Machine.arity_le_of_run hnext

/-- The value of a formula is its truth value: the machine comes to an end with no task left and
this value alone on the stack. On its way it never fails, and before an operator the operands of the
operator are on the stack. From no state at all is an operator applied that is not binary. -/
theorem evaluated_on_stacks (f : Formula Bool) :
    f.value = f.eval ∧
    f.machine.run (f.tasksOnto 0) = .ok ⟨[], [f.eval]⟩ ∧
    (∀ n, ∃ m, f.machine.run n = .ok m) ∧
    (∀ n op tasks values, f.machine.run n = .ok ⟨.operator op :: tasks, values⟩ →
      op.arity ≤ values.length) ∧
    ∀ (m : Machine) n e, m.run n ≠ .error (.arity e) :=
  ⟨value_eq_eval f, run_machine f, exists_run_machine f,
    fun _ _ _ _ h => arity_le_of_run_machine h, fun m n e => Machine.run_ne_arity n m e⟩

end Formula

end Sentential
