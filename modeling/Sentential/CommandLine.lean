import Sentential.CommandLine.Help
import Sentential.Connective.Reference
import Sentential.NormalForm
import Sentential.Settings

/-!
# The command line

A run reads its arguments, then the settings, first from the environment and then from the general
switches, and carries out the command. It ends in an exit code: 0 for success, 1 for an expression
that is refused and for a missing command, 2 for bad arguments and bad settings.
-/
namespace Sentential.CommandLine

/-- What a run prints and logs, its complaint about bad arguments, the settings it hands to the
service, and its exit code. -/
structure Outcome where
  code : Nat := 0
  output : List String := []
  log : List String := []
  complaint : Option String := none
  served : List Settings := []

/-- Errors that a run does not answer by an exit code. -/
inductive Escape where
  | settings (error : SettingsError)
  | evaluation (error : EvaluationError)
  deriving DecidableEq, Repr

def refuse (text : String) : Outcome := { code := 1, output := [text] }

def logLine (settings : Settings) (level : LogLevel) (text : String) : List String :=
  if settings.level.severity ≤ level.severity then [text] else []

def tableNotice : String :=
  "INFO workbench.cli: expression has free variables, printing its truth table"

def tableRecord (t : TruthTable) : String :=
  "DEBUG proplogic.canonical: truth table for " ++ Text.quote t.expression ++ ": " ++
    toString t.names.length ++ " variable(s), " ++ toString t.rows.length ++ " row(s)"

def refuseSyntax (e : SyntaxError) : Outcome := refuse ("⚠ Syntax Error: " ++ e.message)

def refuseExcess (e : VariableExcess) : Outcome := refuse ("⚠ Too Many Variables: " ++ e.message)

def answerClosed (result : Except SyntaxError (List Char)) : Outcome :=
  match result with
  | .ok answer => { output := [String.ofList answer] }
  | .error e => refuseSyntax e

/-- An expression answered from its table under the limit of the settings. -/
def answerTable (settings : Settings) (expression : String) (print : TruthTable → List String) :
    Except Escape Outcome :=
  match TruthTable.build expression (some settings.maxVariables) with
  | .ok t => .ok { output := print t, log := logLine settings .debug (tableRecord t) }
  | .error (.excess e) => .ok (refuseExcess e)
  | .error (.evaluation (.malformed e)) => .ok (refuseSyntax e)
  | .error (.evaluation e) => .error (.evaluation e)

def formLines (disjunctive conjunctive : Bool) (t : TruthTable) : List String :=
  (if disjunctive || !conjunctive then ["DNF: " ++ t.disjunctiveForm] else []) ++
    (if conjunctive || !disjunctive then ["CNF: " ++ t.conjunctiveForm] else [])

/-- An expression without free variables is evaluated, any other one tabulated. -/
def answerExpression (settings : Settings) (expression : String) : Except Escape Outcome :=
  if (Expression.freeVariables expression.toList).isEmpty then
    .ok (answerClosed ((Expression.evaluate expression.toList).map keyword))
  else
    (answerTable settings expression fun t => [t.format]).map fun outcome =>
      { outcome with log := logLine settings .info tableNotice ++ outcome.log }

def perform (settings : Settings) : Command → Except Escape Outcome
  | .evaluate expression => answerExpression settings expression
  | .parse expression => .ok (answerClosed (Expression.render expression.toList))
  | .table expression => answerTable settings expression fun t => [t.format]
  | .forms expression disjunctive conjunctive =>
    answerTable settings expression (formLines disjunctive conjunctive)
  | .connectives => .ok { output := [Operator.reference] }
  | .serve host port openBrowser =>
    match settings.override { host, port, openBrowser } with
    | .ok settings => .ok { served := [settings] }
    | .error e => .error (.settings e)

def settingsOf (i : Invocation) (env : Environment) : Except SettingsError Settings :=
  match Settings.ofEnvironment env with
  | .error e => .error e
  | .ok settings =>
    settings.override { logLevel := i.logLevel, maxVariables := i.maxVariables }

def execute (i : Invocation) (env : Environment) : Except Escape Outcome :=
  match settingsOf i env with
  | .error e => .ok { code := 2, output := ["⚠ Configuration Error: " ++ e.message] }
  | .ok settings =>
    match i.command with
    | none => .ok { code := 1, output := [Page.help .general] }
    | some command => perform settings command

def stopped (page : Page) : Stop → Outcome
  | .help => { output := [page.help] }
  | .usage e => { code := 2, complaint := some (page.title ++ ": error: " ++ e.message) }

def run (arguments : List String) (env : Environment) : Except Escape Outcome :=
  match readInvocation arguments with
  | .error (page, stop) => .ok (stopped page stop)
  | .ok i => execute i env

def Outcome.printed (o : Outcome) : String := String.join (o.output.map (· ++ "\n"))

end Sentential.CommandLine
