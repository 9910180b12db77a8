import Sentential.Formula

/-!
# From tokens to formulas

The grammar, loosest binding first, with every repetition grouped to the left:

    Expression := Term (('→' | '↔') Term)*
    Term       := Factor (('∧' | '∨') Factor)*
    Factor     := '¬' Factor | operand | '(' Expression ')'

The reader takes one token at a time. Its state is a level for every open bracket, holding what the
level has read so far, and whether an operand or an operator comes next. A token that fits neither
the grammar nor the state ends the reading at that token.
-/
namespace Sentential

inductive GrammarError (α : Type) where
  | unexpected (token : Token α)
  | operandExpected
  | unclosed (opening : Nat)
  deriving DecidableEq, Repr

namespace GrammarError

variable {α : Type}

def position? : GrammarError α → Option Nat
  | unexpected token => some token.position
  | operandExpected => none
  | unclosed _ => none

def code : GrammarError α → String
  | unexpected _ => "UNMATCHED_TOKEN"
  | operandExpected => "UNMATCHED_TOKEN"
  | unclosed _ => "MISSING_BRACKET"

def cause : GrammarError Bool → String
  | unexpected token => "Unexpected token " ++ String.ofList (token.lexeme.spelling keyword)
  | operandExpected => "Expected an operand"
  | unclosed opening => "Bracket opened at position " ++ toString opening ++ " is never closed"

def place (e : GrammarError α) : String :=
  match e.position? with
  | some position => "position " ++ toString position
  | none => "end of input"

def message (e : GrammarError Bool) : String := e.cause ++ " at " ++ e.place

end GrammarError

namespace Parser

variable {α : Type}

/-- A left operand that waits for its right one. -/
abbrev Pending (α : Type) := Option (Formula α × BinaryOp)

def Pending.join : Pending α → Formula α → Formula α
  | none, f => f
  | some (lhs, op), f => .binary op lhs f

/-- What one bracket level has read: the expression and the term in progress, each up to its last
operator, and the negations in front of the next factor. -/
structure Level (α : Type) where
  expression : Pending α := none
  term : Pending α := none
  negations : Nat := 0

/-- A bracket that is open and the level around it. -/
structure Group (α : Type) where
  opening : Nat
  outer : Level α

inductive Expectation (α : Type) where
  | operand
  | operator (term : Formula α)

structure State (α : Type) where
  groups : List (Group α) := []
  level : Level α := {}
  expects : Expectation α := .operand

namespace Level

def negate (level : Level α) : Level α := { level with negations := level.negations + 1 }

/-- The term in progress with one more factor. -/
def addFactor (level : Level α) (factor : Formula α) : Formula α :=
  Pending.join level.term (factor.negate level.negations)

/-- The expression in progress with one more term. -/
def addTerm (level : Level α) (term : Formula α) : Formula α :=
  Pending.join level.expression term

def addOperator (level : Level α) (term : Formula α) (op : BinaryOp) : Level α :=
  match op.tier with
  | .junction => { level with term := some (term, op) }
  | .implication => { expression := some (level.addTerm term, op) }

end Level

namespace State

def complete (groups : List (Group α)) (level : Level α) (factor : Formula α) : State α :=
  { groups, level := { expression := level.expression },
    expects := .operator (level.addFactor factor) }

def step (s : State α) (token : Token α) : Except (GrammarError α) (State α) :=
  match s.expects, token.lexeme with
  | .operand, .operand value => .ok (complete s.groups s.level (.operand value))
  | .operand, .operator .negation => .ok { s with level := s.level.negate }
  | .operand, .bracket .left => .ok { groups := ⟨token.position, s.level⟩ :: s.groups }
  | .operator term, .operator (.binary op) =>
    .ok { groups := s.groups, level := s.level.addOperator term op }
  | .operator term, .bracket .right =>
    match s.groups with
    | group :: groups => .ok (complete groups group.outer (s.level.addTerm term))
    | [] => .error (.unexpected token)
  | _, _ => .error (.unexpected token)

def finish (s : State α) : Except (GrammarError α) (Formula α) :=
  match s.expects, s.groups with
  | .operand, _ => .error .operandExpected
  | .operator term, [] => .ok (s.level.addTerm term)
  | .operator _, group :: _ => .error (.unclosed group.opening)

end State

/-- An error and the tokens from the one at fault on. -/
structure Failure (α : Type) where
  error : GrammarError α
  rest : List (Token α)

def run (s : State α) : List (Token α) → Except (Failure α) (Formula α)
  | [] =>
    match s.finish with
    | .ok formula => .ok formula
    | .error e => .error ⟨e, []⟩
  | token :: rest =>
    match s.step token with
    | .ok s => run s rest
    | .error e => .error ⟨e, token :: rest⟩

def parse (tokens : List (Token α)) : Except (Failure α) (Formula α) := run {} tokens

end Parser

end Sentential
