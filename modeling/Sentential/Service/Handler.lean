import Sentential.NormalForm
import Sentential.Service.Json
import Sentential.Settings

/-!
# Handlers

Each route of the service has a handler. A handler returns a JSON value or raises an error. A text
that is no expression raises an error that the service has a reply for, an excess of variables
raises a reply of its own, and any other error is left to whoever called the handler.
-/
namespace Sentential

inductive Route where
  | health
  | connectives
  | evaluate
  | parse
  | truthTable
  | normalForms
  deriving DecidableEq, Repr

namespace Route

def all : List Route := [.health, .connectives, .evaluate, .parse, .truthTable, .normalForms]

def path : Route → String
  | health => "/api/health"
  | connectives => "/api/connectives"
  | evaluate => "/api/evaluate"
  | parse => "/api/parse"
  | truthTable => "/api/truth-table"
  | normalForms => "/api/normal-forms"

def method : Route → String
  | health | connectives => "GET"
  | evaluate | parse | truthTable | normalForms => "POST"

end Route

/-- A handler and what it is called with. -/
inductive Call where
  | health
  | connectives
  | evaluate (expression : String)
  | parse (expression : String)
  | truthTable (expression : String)
  | normalForms (expression : String)
  deriving DecidableEq, Repr

namespace Call

def route : Call → Route
  | health => .health
  | connectives => .connectives
  | evaluate _ => .evaluate
  | parse _ => .parse
  | truthTable _ => .truthTable
  | normalForms _ => .normalForms

def expression? : Call → Option String
  | health | connectives => none
  | evaluate e | parse e | truthTable e | normalForms e => some e

end Call

structure Reply where
  status : Nat
  content : Json

/-- The errors that the service has no reply for. -/
inductive Unhandled where
  | settings (error : SettingsError)
  | unassigned (variableName : Char)
  deriving DecidableEq, Repr

inductive Raised where
  | malformed (error : SyntaxError)
  | http (status : Nat) (detail : Json)
  | unhandled (error : Unhandled)

namespace Service

def version : String := "0.1.0"

def detail (value : Json) : Json := .object [("detail", value)]

def health : Json := .object [("status", .text "ok"), ("version", .text version)]

def describeOperator (op : Operator) : Json :=
  .object [("symbol", .text op.symbol.toString), ("name", .text op.title),
    ("operator", .text op.code), ("arity", .integer op.arity), ("tier", .integer op.rank),
    ("description", .text op.truthCondition)]

def connectives : Json :=
  .object [("connectives", .list (Operator.all.map describeOperator))]

def stage : SyntaxError → String
  | .lexical _ => "lex"
  | .grammatical _ => "parse"

def syntaxDetail (e : SyntaxError) : Json :=
  .object [("stage", .text (stage e)), ("kind", .text e.code), ("message", .text e.message),
    ("pos", match e.position? with
      | some position => .integer position
      | none => .null)]

def excessDetail (e : VariableExcess) : Json :=
  .object [("stage", .text "table"), ("kind", .text "TOO_MANY_VARIABLES"),
    ("message", .text e.message), ("variables", .list (e.names.map .text)),
    ("limit", .integer e.limit)]

/-- The reply to a text that is no expression. -/
def onMalformed (e : SyntaxError) : Reply := ⟨400, detail (syntaxDetail e)⟩

def evaluate (expression : String) : Except Raised Json :=
  match Expression.evaluate expression.toList with
  | .ok result => .ok (.object [("expression", .text expression), ("result", .boolean result)])
  | .error e => .error (.malformed e)

def parse (expression : String) : Except Raised Json :=
  match Expression.render expression.toList with
  | .ok tree =>
    .ok (.object [("expression", .text expression), ("ast", .text (String.ofList tree))])
  | .error e => .error (.malformed e)

def raiseTable : TableError → Raised
  | .excess e => .http 400 (excessDetail e)
  | .evaluation (.malformed e) => .malformed e
  | .evaluation (.unassigned v) => .unhandled (.unassigned v)

def rowBody (r : Row) : Json :=
  .object [("assignment", .object (r.assignment.map fun b => (b.1, .boolean b.2))),
    ("result", .boolean r.result)]

def tableBody (t : TruthTable) : Json :=
  .object [("expression", .text t.expression), ("variables", .list (t.names.map .text)),
    ("rows", .list (t.rows.map rowBody)), ("rendered", .text t.format)]

def formsBody (t : TruthTable) : Json :=
  .object [("expression", .text t.expression), ("variables", .list (t.names.map .text)),
    ("dnf", .text t.disjunctiveForm), ("cnf", .text t.conjunctiveForm)]

def answerTable (settings : Settings) (expression : String) (body : TruthTable → Json) :
    Except Raised Json :=
  match TruthTable.build expression (some settings.maxVariables) with
  | .ok table => .ok (body table)
  | .error e => .error (raiseTable e)

end Service

end Sentential
