import Sentential.Formula

/-!
# Evaluation on two stacks

A formula is evaluated with a stack of tasks and a stack of values. On top of the tasks, a formula
gives way to its parts with its operator under them, and an operator takes its operands off the
values and puts its result there. Performing a formula pushes its truth value, whatever lies below
on either stack, so that in the end this value alone is left.
-/
namespace Sentential

inductive Task where
  | formula (f : Formula Bool)
  | operator (op : Operator)
  deriving DecidableEq, Repr

/-- What would stop an evaluation: an operand that is not on the stack, or an operator that does not
stand between two. -/
inductive Misstep where
  | noOperand
  | arity (error : ArityError)
  deriving DecidableEq, Repr

structure Machine where
  tasks : List Task
  values : List Bool
  deriving DecidableEq, Repr

def Operator.apply? : Operator → Bool → Bool → Except ArityError Bool
  | negation, _, _ => .error (.notBinary .negation)
  | binary op, a, b => .ok (op.apply a b)

namespace Machine

/-- The effect of the task on top. The right operand of an operator lies on top of the left one. -/
def perform (tasks : List Task) (values : List Bool) : Task → Except Misstep Machine
  | .formula (.operand value) => .ok ⟨tasks, value :: values⟩
  | .formula (.negation body) => .ok ⟨.formula body :: .operator .negation :: tasks, values⟩
  | .formula (.binary op lhs rhs) =>
    .ok ⟨.formula lhs :: .formula rhs :: .operator (.binary op) :: tasks, values⟩
  | .operator .negation =>
    match values with
    | a :: values => .ok ⟨tasks, (!a) :: values⟩
    | [] => .error .noOperand
  | .operator op =>
    match values with
    | b :: a :: values =>
      match op.apply? a b with
      | .ok value => .ok ⟨tasks, value :: values⟩
      | .error e => .error (.arity e)
    | _ => .error .noOperand

/-- Performs task after task until none is left, at most a given number of them. -/
def run : Nat → Machine → Except Misstep Machine
  | n + 1, ⟨task :: tasks, values⟩ =>
    match perform tasks values task with
    | .ok next => run n next
    | .error misstep => .error misstep
  | _, m => .ok m

theorem run_cons (n : Nat) (task : Task) (tasks : List Task) (values : List Bool) :
    run (n + 1) ⟨task :: tasks, values⟩ =
      match perform tasks values task with
      | .ok next => run n next
      | .error misstep => .error misstep := rfl

theorem run_nil (n : Nat) (values : List Bool) : run n ⟨[], values⟩ = .ok ⟨[], values⟩ := by
  cases n <;> rfl

end Machine

namespace Formula

/-- The number of tasks that a formula comes to, on top of a number. -/
def tasksOnto : Formula Bool → Nat → Nat
  | operand _, n => n + 1
  | negation body, n => body.tasksOnto (n + 2)
  | binary _ lhs rhs, n => lhs.tasksOnto (rhs.tasksOnto (n + 2))

theorem tasksOnto_succ (f : Formula Bool) (n : Nat) :
    f.tasksOnto (n + 1) = f.tasksOnto n + 1 := by
  induction f generalizing n with
  | operand value => rfl
  | negation body ih => rw [tasksOnto, tasksOnto, Nat.add_right_comm, ih]
  | binary op lhs rhs ihl ihr => rw [tasksOnto, tasksOnto, Nat.add_right_comm, ihr, ihl]

theorem run_tasksOnto (f : Formula Bool) (n : Nat) (tasks : List Task) (values : List Bool) :
    Machine.run (f.tasksOnto n) ⟨.formula f :: tasks, values⟩ =
      Machine.run n ⟨tasks, f.eval :: values⟩ := by
  induction f generalizing n tasks values with
  | operand value => rfl
  | negation body ih =>
    calc
      Machine.run (body.tasksOnto (n + 2)) ⟨.formula body.negation :: tasks, values⟩
      _ = Machine.run (body.tasksOnto (n + 1))
            ⟨.formula body :: .operator .negation :: tasks, values⟩ := by
          rw [tasksOnto_succ]
          rfl
      _ = Machine.run (n + 1) ⟨.operator .negation :: tasks, body.eval :: values⟩ := ih _ _ _
      _ = Machine.run n ⟨tasks, (!body.eval) :: values⟩ := rfl
  | binary op lhs rhs ihl ihr =>
    calc
      Machine.run (lhs.tasksOnto (rhs.tasksOnto (n + 2)))
            ⟨.formula (.binary op lhs rhs) :: tasks, values⟩
      _ = Machine.run (lhs.tasksOnto (rhs.tasksOnto (n + 1)))
            ⟨.formula lhs :: .formula rhs :: .operator (.binary op) :: tasks, values⟩ := by
          rw [tasksOnto_succ, tasksOnto_succ]
          rfl
      _ = Machine.run (rhs.tasksOnto (n + 1))
            ⟨.formula rhs :: .operator (.binary op) :: tasks, lhs.eval :: values⟩ := ihl _ _ _
      _ = Machine.run (n + 1)
            ⟨.operator (.binary op) :: tasks, rhs.eval :: lhs.eval :: values⟩ := ihr _ _ _
      _ = Machine.run n ⟨tasks, op.apply lhs.eval rhs.eval :: values⟩ := rfl
      _ = Machine.run n ⟨tasks, (binary op lhs rhs).eval :: values⟩ := by rw [eval_binary]

/-- The machine that has the formula to evaluate. -/
def machine (f : Formula Bool) : Machine := ⟨[.formula f], []⟩

theorem run_machine (f : Formula Bool) :
    f.machine.run (f.tasksOnto 0) = .ok ⟨[], [f.eval]⟩ :=
  (run_tasksOnto f 0 [] []).trans (Machine.run_nil 0 [f.eval])

def run? (f : Formula Bool) : Except Misstep Bool :=
  match Machine.run (f.tasksOnto 0) f.machine with
  | .ok ⟨_, value :: _⟩ => .ok value
  | .ok ⟨_, []⟩ => .error .noOperand
  | .error misstep => .error misstep

theorem run?_eq (f : Formula Bool) : f.run? = .ok f.eval := by
  rw [run?, run_machine]

/-- The truth value of a formula, taken off the value stack in the end. -/
def value (f : Formula Bool) : Bool := f.run?.toOption.get (by rw [run?_eq]; rfl)

theorem value_eq_eval (f : Formula Bool) : f.value = f.eval := by
  simp [value, run?_eq, Except.toOption]

end Formula

end Sentential
