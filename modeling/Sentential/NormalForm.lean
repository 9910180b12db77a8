import Sentential.TruthTable

/-!
# Normal forms

The disjunctive normal form of a table has one conjunction for each satisfying row, the conjunctive
normal form one disjunction for each falsifying row. Clauses stand in brackets, and a clause without
literals is a keyword.
-/
namespace Sentential.NormalForm

def literal (name : String) (negated : Bool) : List Char :=
  if negated then Operator.negation.symbol :: name.toList else name.toList

def joinWith (op : BinaryOp) (parts : List (List Char)) : List Char :=
  List.intercalate [' ', (Operator.binary op).symbol, ' '] parts

def clause (op : BinaryOp) (empty : Bool) (literals : List (List Char)) : List Char :=
  if literals.isEmpty then keyword empty else '(' :: joinWith op literals ++ [')']

/-- The conjunction that holds on exactly the bindings of a row. -/
def rowConjunction (r : Row) : List Char :=
  clause .conjunction true (r.bindings.map fun b => literal b.1 (!b.2))

/-- The disjunction that fails on exactly the bindings of a row. -/
def rowDisjunction (r : Row) : List Char :=
  clause .disjunction false (r.bindings.map fun b => literal b.1 b.2)

def joinClauses (op : BinaryOp) (empty : Bool) (clauses : List (List Char)) : List Char :=
  if clauses.isEmpty then keyword empty else joinWith op clauses

def disjunctive (t : TruthTable) : List Char :=
  joinClauses .disjunction false (t.satisfying.map rowConjunction)

def conjunctive (t : TruthTable) : List Char :=
  joinClauses .conjunction true (t.falsifying.map rowDisjunction)

end Sentential.NormalForm

namespace Sentential

def TruthTable.disjunctiveForm (t : TruthTable) : String :=
  String.ofList (NormalForm.disjunctive t)

def TruthTable.conjunctiveForm (t : TruthTable) : String :=
  String.ofList (NormalForm.conjunctive t)

end Sentential
