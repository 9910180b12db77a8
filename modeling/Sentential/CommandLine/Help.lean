import Sentential.CommandLine.Invocation

/-!
# Help texts

Every page has a help text, set for a screen of eighty columns.
-/
namespace Sentential.CommandLine

def generalHelp : String := "usage: proplogic [-h] [--log-level LOG_LEVEL] [--max-variables MAX_VARIABLES]
                 \x7beval,parse,table,forms,connectives,serve\x7d ...

Propositional logic calculator

positional arguments:
  \x7beval,parse,table,forms,connectives,serve\x7d
                        Command to run
    eval                Evaluate an expression
    parse               Show the parenthesized AST
    table               Print the truth table
    forms               Print normal forms
    connectives         List the connectives
    serve               Launch the HTTP server

options:
  -h, --help            show this help message and exit
  --log-level LOG_LEVEL
                        Logging level (default: $PROPLOGIC_LOG_LEVEL or
                        WARNING)
  --max-variables MAX_VARIABLES
                        Largest truth table, in free variables (default:
                        $PROPLOGIC_MAX_VARIABLES or 12)

Examples:
  proplogic eval \"¬(true ∧ false)\"
  proplogic parse \"true ∧ false → true\"
  proplogic table \"(A ∧ B) → C\"
  proplogic forms \"A ↔ B\"
  proplogic serve --port 3000"

def expressionHelp (name : CommandName) (purpose : String) : String :=
  "usage: proplogic " ++ name.word ++ " [-h] expression

positional arguments:
  expression  " ++ purpose ++ "

options:
  -h, --help  show this help message and exit"

def formsHelp : String := "usage: proplogic forms [-h] [--dnf] [--cnf] expression

positional arguments:
  expression  Expression over variables A-Z

options:
  -h, --help  show this help message and exit
  --dnf       Only the disjunctive normal form
  --cnf       Only the conjunctive normal form"

def connectivesHelp : String := "usage: proplogic connectives [-h]

options:
  -h, --help  show this help message and exit"

def serveHelp : String := "usage: proplogic serve [-h] [--host HOST] [--port PORT] [--open-browser]

options:
  -h, --help      show this help message and exit
  --host HOST     Bind address
  --port PORT     Port number
  --open-browser  Open the API docs in a browser"

def Page.help : Page → String
  | .general => generalHelp
  | .command .evaluate => expressionHelp .evaluate "Expression to evaluate"
  | .command .parse => expressionHelp .parse "Expression to parse"
  | .command .table => expressionHelp .table "Expression over variables A-Z"
  | .command .forms => formsHelp
  | .command .connectives => connectivesHelp
  | .command .serve => serveHelp

end Sentential.CommandLine
