import Sentential.Expression

/-!
# Truth tables

A row binds the variables of a table and gives the value of the expression under the bindings. The
table of an expression has a row for every assignment of its free variables, from all false to all
true with the first variable most significant. A limit on the number of variables is checked before
the text is looked at.
-/
namespace Sentential

structure Row where
  bindings : List (String × Bool)
  result : Bool
  deriving DecidableEq, Repr

structure TruthTable where
  expression : String
  names : List String
  rows : List Row := []
  deriving DecidableEq, Repr

structure VariableExcess where
  names : List String
  limit : Int
  deriving DecidableEq, Repr

def VariableExcess.message (e : VariableExcess) : String :=
  toString e.names.length ++ " free variables would need " ++
    toString (Nat.pow 2 e.names.length) ++ " rows; the limit is " ++ toString e.limit ++
    " variables"

inductive TableError where
  | excess (error : VariableExcess)
  | evaluation (error : EvaluationError)
  deriving DecidableEq, Repr

/-- Each name once, where it first stands and with the value it has last. -/
def Assignment.collapse (pairs : List (String × Bool)) : Assignment :=
  pairs.foldl put []
where
  put (entries : Assignment) (pair : String × Bool) : Assignment :=
    if entries.any (·.1 == pair.1) then
      entries.map fun entry => if entry.1 == pair.1 then pair else entry
    else entries ++ [pair]

namespace Row

def ofAssignment (pairs : List (String × Bool)) (result : Bool) : Row :=
  ⟨Assignment.collapse pairs, result⟩

def assignment (r : Row) : Assignment := Assignment.collapse r.bindings

end Row

namespace TruthTable

/-- All ways to bind some names, the first name changing slowest and false coming first. -/
def assignments : List String → List Assignment
  | [] => [[]]
  | name :: names =>
    (assignments names).map ((name, false) :: ·) ++ (assignments names).map ((name, true) :: ·)

theorem length_assignments (names : List String) :
    (assignments names).length = Nat.pow 2 names.length := by
  induction names with
  | nil => rfl
  | cons name names ih =>
    rw [assignments, List.length_append, List.length_map, List.length_map, ih]
    exact (Nat.mul_two _).symm

/-- One row of an expression for each assignment, up to the first that fails. -/
def tabulate (s : List Char) : List Assignment → Except EvaluationError (List Row)
  | [] => .ok []
  | a :: more =>
    match Expression.evaluateUnder a s with
    | .error e => .error e
    | .ok result =>
      match tabulate s more with
      | .error e => .error e
      | .ok rows => .ok (Row.ofAssignment a result :: rows)

def variablesOf (expression : String) : List String :=
  (Expression.freeVariables expression.toList).map Char.toString

def exceeds (count : Nat) : Option Int → Option Int
  | none => none
  | some limit => if limit < (count : Int) then some limit else none

/-- The truth table of an expression, if it has no more variables than the limit. -/
def build (expression : String) (limit : Option Int) : Except TableError TruthTable :=
  let names := variablesOf expression
  match exceeds names.length limit with
  | some limit => .error (.excess ⟨names, limit⟩)
  | none =>
    match tabulate expression.toList (assignments names) with
    | .error e => .error (.evaluation e)
    | .ok rows => .ok { expression, names, rows }

def satisfying (t : TruthTable) : List Row := t.rows.filter (·.result)

def falsifying (t : TruthTable) : List Row := t.rows.filter (!·.result)

def isTautology (t : TruthTable) : Bool := t.rows.all (·.result)

def isSatisfiable (t : TruthTable) : Bool := t.rows.any (·.result)

def addRow (t : TruthTable) (r : Row) : TruthTable := { t with rows := t.rows ++ [r] }

def cells (r : Row) : List (List Char) := r.bindings.map (keyword ·.2) ++ [keyword r.result]

def headCells (t : TruthTable) : List (List Char) :=
  t.names.map String.toList ++ ["Result".toList]

def printedLines (t : TruthTable) : List (List Char) :=
  (t.headCells :: t.rows.map cells).map (List.intercalate ['\t'])

/-- One line for the names and one for each row, the cells separated by tabulators. -/
def format (t : TruthTable) : String := String.ofList (List.intercalate ['\n'] t.printedLines)

end TruthTable

end Sentential
