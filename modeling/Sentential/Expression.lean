import Sentential.Formula.Evaluation
import Sentential.Formula.Parser
import Sentential.Token.Lexer

/-!
# Expressions

An expression is a text. Closed, it reads as a formula over truth values. Open, it may name
variables, the capital letters other than T and F, which stand for the truth values themselves.
Variables and constants are replaced by keywords in the text, and what results is read as a closed
expression.
-/
namespace Sentential

inductive SyntaxError where
  | lexical (error : LexicalError)
  | grammatical (error : GrammarError Bool)
  deriving DecidableEq, Repr

namespace SyntaxError

def message : SyntaxError → String
  | lexical error => error.message
  | grammatical error => error.message

def code : SyntaxError → String
  | lexical error => error.code
  | grammatical error => error.code

def position? : SyntaxError → Option Nat
  | lexical error => some error.position
  | grammatical error => error.position?

end SyntaxError

inductive EvaluationError where
  | unassigned (variableName : Char)
  | malformed (error : SyntaxError)
  deriving DecidableEq, Repr

/-- Truth values under names, the first entry of a name counting. -/
abbrev Assignment := List (String × Bool)

namespace Expression

def parse (s : List Char) : Except SyntaxError (Formula Bool) :=
  match Token.lex s with
  | .error e => .error (.lexical e)
  | .ok tokens =>
    match Parser.parse tokens with
    | .error failure => .error (.grammatical failure.error)
    | .ok formula => .ok formula

def evaluate (s : List Char) : Except SyntaxError Bool := (parse s).map Formula.value

def render (s : List Char) : Except SyntaxError (List Char) := (parse s).map Formula.render

def constant? : Char → Option Bool
  | 'T' => some true
  | 'F' => some false
  | _ => none

def isVariable (c : Char) : Bool := 'A' ≤ c && c ≤ 'Z' && (constant? c).isNone

/-- Every variable there is, in alphabetical order. -/
def alphabet : List Char := "ABCDEGHIJKLMNOPQRSUVWXYZ".toList

def freeVariables (s : List Char) : List Char := alphabet.filter fun v => v ∈ s

/-- The text that one character of an open expression stands for. -/
def substituteChar (assignment : Assignment) (c : Char) : Except EvaluationError (List Char) :=
  match constant? c with
  | some value => .ok (keyword value)
  | none =>
    if isVariable c then
      match assignment.lookup c.toString with
      | some value => .ok (keyword value)
      | none => .error (.unassigned c)
    else .ok [c]

def substitute (assignment : Assignment) : List Char → Except EvaluationError (List Char)
  | [] => .ok []
  | c :: rest =>
    match substituteChar assignment c with
    | .error e => .error e
    | .ok front =>
      match substitute assignment rest with
      | .error e => .error e
      | .ok back => .ok (front ++ back)

def evaluateUnder (assignment : Assignment) (s : List Char) : Except EvaluationError Bool :=
  match substitute assignment s with
  | .error e => .error e
  | .ok closed => (evaluate closed).mapError .malformed

end Expression

end Sentential
