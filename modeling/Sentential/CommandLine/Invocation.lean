import Sentential.CommandLine.Argument

/-!
# Invocations

An invocation is what a list of arguments asks for: general settings and at most one command with
its own arguments. The general page takes the arguments up to the command, the page of the command
takes the rest, and what neither has a place for is refused in the end.
-/
namespace Sentential.CommandLine

inductive CommandName where
  | evaluate
  | parse
  | table
  | forms
  | connectives
  | serve
  deriving DecidableEq, Repr

namespace CommandName

def all : List CommandName := [.evaluate, .parse, .table, .forms, .connectives, .serve]

def word : CommandName → String
  | evaluate => "eval"
  | parse => "parse"
  | table => "table"
  | forms => "forms"
  | connectives => "connectives"
  | serve => "serve"

def ofWord? (w : String) : Option CommandName := all.find? fun c => c.word = w

end CommandName

inductive Command where
  | evaluate (expression : String)
  | parse (expression : String)
  | table (expression : String)
  | forms (expression : String) (disjunctive conjunctive : Bool)
  | connectives
  | serve (host : Option String) (port : Option Int) (openBrowser : Option Bool)
  deriving DecidableEq, Repr

structure Invocation where
  logLevel : Option String := none
  maxVariables : Option Int := none
  command : Option Command := none
  deriving DecidableEq, Repr

inductive Page where
  | general
  | command (name : CommandName)
  deriving DecidableEq, Repr

namespace Page

def program : String := "proplogic"

/-- The name under which a page reports its errors. -/
def title : Page → String
  | general => program
  | command name => program ++ " " ++ name.word

def place : Page → Place
  | general => .command
  | command .connectives => .nothing
  | command .serve => .nothing
  | command _ => .expression

def switches : Page → List Switch
  | general => [⟨"--log-level", .text⟩, ⟨"--max-variables", .integer⟩]
  | command .forms => [⟨"--dnf", .flag⟩, ⟨"--cnf", .flag⟩]
  | command .serve => [⟨"--host", .text⟩, ⟨"--port", .integer⟩, ⟨"--open-browser", .flag⟩]
  | command _ => []

def read (page : Page) (arguments : List String) : Except (Page × Stop) Reading :=
  (readPage page.place page.switches arguments).mapError ((page, ·))

end Page

def CommandName.ofReading (name : CommandName) (r : Reading) : Command :=
  let expression := r.expression.getD ""
  match name with
  | evaluate => .evaluate expression
  | parse => .parse expression
  | table => .table expression
  | forms => .forms expression (r.has "--dnf") (r.has "--cnf")
  | connectives => .connectives
  | serve =>
    .serve (r.text? "--host") (r.integer? "--port")
      (if r.has "--open-browser" then some true else none)

/-- Refuses what no page had a place for. -/
def finish (extras : List String) (i : Invocation) : Except (Page × Stop) Invocation :=
  if extras.isEmpty then .ok i else .error (.general, .usage (.unrecognized extras))

def readInvocation (arguments : List String) : Except (Page × Stop) Invocation :=
  match Page.general.read arguments with
  | .error e => .error e
  | .ok general =>
    let settings : Invocation :=
      { logLevel := general.text? "--log-level",
        maxVariables := general.integer? "--max-variables" }
    match general.command with
    | none => finish general.extras settings
    | some (word, rest) =>
      match CommandName.ofWord? word with
      | none =>
        .error (.general, .usage (.unknownCommand word (CommandName.all.map CommandName.word)))
      | some name =>
        match (Page.command name).read rest with
        | .error e => .error e
        | .ok r =>
          finish (general.extras ++ r.extras) { settings with command := some (name.ofReading r) }

end Sentential.CommandLine
