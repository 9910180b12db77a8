/-!
# Connectives

There are five operators, negation and four binary ones. Each has a glyph, a code, a binding tier
and a truth condition. Lower tiers bind tighter: negation, then the junctions, then the
implications.
-/
namespace Sentential

inductive BinaryOp where
  | conjunction
  | disjunction
  | conditional
  | biconditional
  deriving DecidableEq, Repr

inductive Operator where
  | negation
  | binary (op : BinaryOp)
  deriving DecidableEq, Repr

inductive Tier where
  | junction
  | implication
  deriving DecidableEq, Repr

namespace BinaryOp

def tier : BinaryOp → Tier
  | conjunction | disjunction => .junction
  | conditional | biconditional => .implication

def apply : BinaryOp → Bool → Bool → Bool
  | conjunction, a, b => a && b
  | disjunction, a, b => a || b
  | conditional, a, b => !a || b
  | biconditional, a, b => a == b

end BinaryOp

namespace Operator

/-- Every operator, in the order of the reference tables. -/
def all : List Operator :=
  [.negation, .binary .conjunction, .binary .disjunction, .binary .conditional,
    .binary .biconditional]

theorem mem_all (op : Operator) : op ∈ all := by
  rcases op with _ | (_ | _ | _ | _) <;> decide

def symbol : Operator → Char
  | negation => '¬'
  | binary .conjunction => '∧'
  | binary .disjunction => '∨'
  | binary .conditional => '→'
  | binary .biconditional => '↔'

def ofSymbol? (c : Char) : Option Operator := all.find? fun op => op.symbol = c

theorem ofSymbol?_symbol (op : Operator) : ofSymbol? op.symbol = some op := by
  rcases op with _ | (_ | _ | _ | _) <;> decide

theorem symbol_of_ofSymbol? {c : Char} {op : Operator} (h : ofSymbol? c = some op) :
    op.symbol = c := by
  simpa using List.find?_some h

def code : Operator → String
  | negation => "NON"
  | binary .conjunction => "AND"
  | binary .disjunction => "OR"
  | binary .conditional => "CONDITIONAL"
  | binary .biconditional => "BICONDITIONAL"

def ofCode? (code : String) : Option Operator := all.find? fun op => op.code = code

def title : Operator → String
  | negation => "Negation"
  | binary .conjunction => "Conjunction"
  | binary .disjunction => "Disjunction"
  | binary .conditional => "Conditional"
  | binary .biconditional => "Biconditional"

def truthCondition : Operator → String
  | negation => "true iff the operand is false"
  | binary .conjunction => "true iff both sides are true"
  | binary .disjunction => "true iff either side is true"
  | binary .conditional => "false only when true implies false"
  | binary .biconditional => "true iff both sides agree"

def arity : Operator → Nat
  | negation => 1
  | binary _ => 2

/-- The number of the binding tier, tightest first. -/
def rank : Operator → Nat
  | negation => 0
  | binary op =>
    match op.tier with
    | .junction => 1
    | .implication => 2

def isUnary (op : Operator) : Bool := op.arity == 1

def isBinary (op : Operator) : Bool := op.arity == 2

def ofRank (rank : Int) : List Operator := all.filter fun op => (op.rank : Int) = rank

end Operator

end Sentential
