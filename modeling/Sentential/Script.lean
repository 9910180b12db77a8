import Sentential.NormalForm
import Sentential.Script.Path
import Sentential.Text.Blank
import Sentential.Text.Line

/-!
# Scripts

A script is a text file with one expression on a line. Blank lines and lines that start with a
number sign are passed over. Every other line is answered on its own, a malformed one by its error
and its number.
-/
namespace Sentential.Script

structure Report where
  code : Nat
  output : List String
  deriving DecidableEq, Repr

inductive Cause where
  | undecodable
  | table (error : TableError)
  deriving DecidableEq, Repr

/-- An error that ends a run, and what the run has printed before it. -/
structure Failure where
  cause : Cause
  output : List String := []
  deriving DecidableEq, Repr

structure Block where
  output : List String
  failed : Bool := false
  deriving DecidableEq, Repr

def isSkipped (line : List Char) : Bool :=
  line.isEmpty || line.head? == some '#'

def closedBlock (line : List Char) (value : Bool) : Block :=
  ⟨[String.ofList (line ++ "  ⟹ ".toList ++ keyword value)], false⟩

def tableBlock (t : TruthTable) : Block :=
  ⟨[t.expression, t.format, "DNF: " ++ t.disjunctiveForm, "CNF: " ++ t.conjunctiveForm, ""], false⟩

def evaluateLine (line : List Char) : Except TableError Block :=
  if (Expression.freeVariables line).isEmpty then
    match Expression.evaluate line with
    | .ok value => .ok (closedBlock line value)
    | .error e => .error (.evaluation (.malformed e))
  else (TruthTable.build (String.ofList line) none).map tableBlock

def failedBlock (number : Nat) (e : SyntaxError) : Block :=
  ⟨["⚠ L" ++ toString number ++ ": Syntax Error: " ++ e.message], true⟩

/-- What the line of a number prints. Syntax errors are part of the answer. -/
def block (number : Nat) (raw : List Char) : Except TableError Block :=
  let line := Text.trim raw
  if isSkipped line then .ok ⟨[], false⟩
  else
    match evaluateLine line with
    | .ok result => .ok result
    | .error (.evaluation (.malformed e)) => .ok (failedBlock number e)
    | .error e => .error e

/-- The blocks of successive lines, the first of which has the given number, up to an error that is
not part of an answer. -/
def blocks (number : Nat) : List (List Char) → List Block × Option TableError
  | [] => ([], none)
  | raw :: more =>
    match block number raw with
    | .error e => ([], some e)
    | .ok first =>
      match blocks (number + 1) more with
      | (later, error) => (first :: later, error)

def failures (bs : List Block) : Nat := bs.countP (·.failed)

def footer (failed : Nat) : String :=
  if failed = 0 then "∴ ─── Complete ───"
  else "∴ ─── " ++ toString failed ++ " line(s) failed ───"

def header (path : String) : List String :=
  ["∴ ─── Running: " ++ Path.baseName path ++ " ───", ""]

def printed (path : String) (bs : List Block) : List String :=
  header path ++ bs.flatMap (·.output)

def report (path : String) (bs : List Block) : Report where
  code := if failures bs = 0 then 0 else 1
  output := printed path bs ++ ["", footer (failures bs)]

def runText (path : String) (text : List Char) : Except Failure Report :=
  match blocks 1 (Text.lines (Text.unifyNewlines text)) with
  | (bs, none) => .ok (report path bs)
  | (bs, some e) => .error { cause := .table e, output := printed path bs }

/-- Runs the file at a path, given its contents if it exists. -/
def runFile (path : String) : Option ByteArray → Except Failure Report
  | none => .ok ⟨1, ["Error: File not found: " ++ path]⟩
  | some bytes =>
    match String.fromUTF8? bytes with
    | none => .error { cause := .undecodable }
    | some text => runText path text.toList

def usage : List String :=
  ["Usage: python run.py <filename.logic>", "       python run.py examples/tautologies.logic"]

def runArguments (read : String → Option ByteArray) : List String → Except Failure Report
  | [] => .ok ⟨1, usage⟩
  | path :: _ => runFile path (read path)

end Sentential.Script
