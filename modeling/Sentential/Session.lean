import Sentential.Connective.Reference
import Sentential.NormalForm
import Sentential.Text.Blank
import Sentential.Text.Lowercase

/-!
# Interactive sessions

A session reads one line after another and answers each on its own. A line may name a command in any
case; any other line is an expression, which is tabulated if it has free variables and evaluated if
not. A malformed line is answered by its error, and the session goes on until it is told to stop or
the input ends.
-/
namespace Sentential.Session

structure Reply where
  output : List String
  failure : Option TableError := none
  deriving DecidableEq, Repr

inductive Command where
  | tree
  | table
  | forms
  deriving DecidableEq, Repr

def Command.all : List Command := [.tree, .table, .forms]

def Command.name : Command → List Char
  | tree => "ast".toList
  | table => "table".toList
  | forms => "forms".toList

def Command.ofWord? (word : List Char) : Option Command :=
  Command.all.find? fun command => command.name = Text.lower word

def firstWord (line : List Char) : List Char := line.takeWhile (· ≠ ' ')

def afterFirstWord (line : List Char) : List Char := (line.dropWhile (· ≠ ' ')).drop 1

def answerLine (answer : List Char) : String := String.ofList ("  ⟹ ".toList ++ answer)

def closedReply (result : Except SyntaxError (List Char)) : Reply :=
  match result with
  | .ok answer => ⟨[answerLine answer], none⟩
  | .error e => ⟨[], some (.evaluation (.malformed e))⟩

def tableReply (expression : List Char) (print : TruthTable → List String) : Reply :=
  match TruthTable.build (String.ofList expression) none with
  | .ok table => ⟨print table, none⟩
  | .error e => ⟨[], some e⟩

def formLines (t : TruthTable) : List String :=
  ["  DNF: " ++ t.disjunctiveForm, "  CNF: " ++ t.conjunctiveForm]

def expressionReply (line : List Char) : Reply :=
  if (Expression.freeVariables line).isEmpty then
    closedReply ((Expression.evaluate line).map keyword)
  else tableReply line fun t => [t.format]

def reply (line : List Char) : Reply :=
  match Command.ofWord? (firstWord line) with
  | some .tree => closedReply (Expression.render (afterFirstWord line))
  | some .table => tableReply (afterFirstWord line) fun t => [t.format]
  | some .forms => tableReply (afterFirstWord line) formLines
  | none => expressionReply line

def banner : String := "
╔══════════════════════════════════════════════════════════════╗
║                                                              ║
║     ∴ ─── PROPLOGIC ─── ∴                                    ║
║                                                              ║
║     Propositional calculator                                 ║
║     Connectives:  ¬ ∧ ∨ → ↔     Literals: true false         ║
║     Type 'help' for the connective reference                 ║
║     Type 'exit' or Ctrl+C to quit                            ║
║                                                              ║
╚══════════════════════════════════════════════════════════════╝
"

def help : String := "
Precedence, loosest first:  → ↔   then   ∧ ∨   then   ¬
Binary connectives group to the left: A ∧ B ∧ C is (A ∧ B) ∧ C.

Examples:
  ((true ∧ false) → true) ↔ true
  ¬¬true
  (A ∧ B) → C
  ast true ∧ false → true
  forms A ↔ B

Commands: help, ast <expr>, table <expr>, forms <expr>, exit
"

def farewell : String := "  Goodbye."

def isStop (line : List Char) : Bool :=
  Text.lower line == "exit".toList || Text.lower line == "quit".toList

def isHelp (line : List Char) : Bool := Text.lower line == "help".toList

/-- What a session prints for a trimmed line that does not stop it. Syntax errors are part of the
answer, any other error ends the session. -/
def block (line : List Char) : Except TableError (List String) :=
  if line.isEmpty then .ok []
  else if isHelp line then .ok [Operator.reference, help]
  else
    match reply line with
    | ⟨output, none⟩ => .ok output
    | ⟨output, some (.evaluation (.malformed e))⟩ =>
      .ok (output ++ ["  ⚠ Syntax Error: " ++ e.message])
    | ⟨_, some e⟩ => .error e

structure Transcript where
  prompts : Nat
  output : List String
  deriving DecidableEq, Repr

/-- A session after its banner. An input is a line, or none for an interrupt. -/
def converse : List (Option String) → Except TableError Transcript
  | [] => .ok ⟨1, ["\n" ++ farewell]⟩
  | none :: _ => .ok ⟨1, ["\n" ++ farewell]⟩
  | some line :: more =>
    let line := Text.trim line.toList
    if isStop line then .ok ⟨1, [farewell]⟩
    else
      match block line with
      | .error e => .error e
      | .ok output =>
        match converse more with
        | .error e => .error e
        | .ok later => .ok ⟨later.prompts + 1, output ++ later.output⟩

def run (inputs : List (Option String)) : Except TableError Transcript :=
  (converse inputs).map fun t => { t with output := banner :: t.output }

end Sentential.Session
