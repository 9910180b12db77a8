import Sentential.Token

/-!
# Formulas

A formula is an operand, a negation or two formulas under a binary connective. It has a truth value
once its operands have one, and a fully bracketed text in which only negations go without brackets.
-/
namespace Sentential

inductive Formula (α : Type) where
  | operand (value : α)
  | negation (body : Formula α)
  | binary (op : BinaryOp) (lhs rhs : Formula α)
  deriving DecidableEq, Repr

inductive Label (α : Type) where
  | operand (value : α)
  | operator (op : Operator)
  deriving DecidableEq, Repr

inductive ArityError where
  | notUnary (op : Operator)
  | notBinary (op : Operator)
  deriving DecidableEq, Repr

def ArityError.message : ArityError → String
  | notUnary op => op.code ++ " is not a unary operator"
  | notBinary op => op.code ++ " is not a binary operator"

namespace Formula

variable {α β : Type}

def map (f : α → β) : Formula α → Formula β
  | operand value => operand (f value)
  | negation body => negation (body.map f)
  | binary op lhs rhs => binary op (lhs.map f) (rhs.map f)

def eval : Formula Bool → Bool
  | operand value => value
  | negation body => !body.eval
  | binary .conjunction lhs rhs => lhs.eval && rhs.eval
  | binary .disjunction lhs rhs => lhs.eval || rhs.eval
  | binary .conditional lhs rhs => !lhs.eval || rhs.eval
  | binary .biconditional lhs rhs => lhs.eval == rhs.eval

theorem eval_binary (op : BinaryOp) (lhs rhs : Formula Bool) :
    (binary op lhs rhs).eval = op.apply lhs.eval rhs.eval := by
  cases op <;> rfl

def negate : Nat → Formula α → Formula α
  | 0, f => f
  | n + 1, f => negate n (negation f)

def ofUnary? (op : Operator) (body : Formula α) : Except ArityError (Formula α) :=
  match op with
  | .negation => .ok (negation body)
  | .binary _ => .error (.notUnary op)

def ofBinary? (op : Operator) (lhs rhs : Formula α) : Except ArityError (Formula α) :=
  match op with
  | .negation => .error (.notBinary op)
  | .binary op => .ok (binary op lhs rhs)

/-- The bracketed text of a formula in front of a further text. -/
def renderOnto (spell : α → List Char) : Formula α → List Char → List Char
  | operand value, rest => spell value ++ rest
  | negation body, rest => Operator.negation.symbol :: body.renderOnto spell rest
  | binary op lhs rhs, rest =>
    '(' :: lhs.renderOnto spell
      (' ' :: (Operator.binary op).symbol :: ' ' :: rhs.renderOnto spell (')' :: rest))

def render (f : Formula Bool) : List Char := f.renderOnto keyword []

theorem renderOnto_append (spell : α → List Char) (f : Formula α) (s t : List Char) :
    f.renderOnto spell (s ++ t) = f.renderOnto spell s ++ t := by
  induction f generalizing s with
  | operand value => simp [renderOnto]
  | negation body ih => simp [renderOnto, ih]
  | binary op lhs rhs ihl ihr => simp [renderOnto, ← ihl, ← ihr]

theorem renderOnto_eq (spell : α → List Char) (f : Formula α) (s : List Char) :
    f.renderOnto spell s = f.renderOnto spell [] ++ s := by
  simpa using renderOnto_append spell f [] s

def labelsOnto : Formula α → List (Label α) → List (Label α)
  | operand value, rest => .operand value :: rest
  | negation body, rest => .operator .negation :: body.labelsOnto rest
  | binary op lhs rhs, rest => .operator (.binary op) :: lhs.labelsOnto (rhs.labelsOnto rest)

/-- The nodes of a formula, each before its parts and the left part first. -/
def labels (f : Formula α) : List (Label α) := f.labelsOnto []

end Formula

end Sentential
