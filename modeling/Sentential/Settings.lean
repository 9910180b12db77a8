import Sentential.Text.Lowercase
import Sentential.Text.Numeral
import Sentential.Text.Quoted

/-!
# Settings

The settings shared by the tools: an address to serve on, how much to log, and the largest table to
build. They come from defaults, from environment variables and from overrides. Whatever the source,
the port, the log level and the table limit are checked in this order and the first bad value is the
error.
-/
namespace Sentential

inductive LogLevel where
  | critical
  | error
  | warning
  | info
  | debug
  | trace
  deriving DecidableEq, Repr

namespace LogLevel

def all : List LogLevel := [.critical, .error, .warning, .info, .debug, .trace]

def name : LogLevel → String
  | critical => "critical"
  | error => "error"
  | warning => "warning"
  | info => "info"
  | debug => "debug"
  | trace => "trace"

/-- The number of a level. A message is logged when its own number is not below. -/
def severity : LogLevel → Nat
  | critical => 50
  | error => 40
  | warning => 30
  | info => 20
  | debug => 10
  | trace => 5

def ofName? (word : String) : Option LogLevel :=
  all.find? fun level => level.name = Text.lowerString word

end LogLevel

inductive SettingsError where
  | notInteger (variableName : String) (text : String)
  | portOutOfRange (port : Int)
  | unknownLogLevel (word : String)
  | negativeLimit (limit : Int)
  deriving DecidableEq, Repr

def SettingsError.message : SettingsError → String
  | notInteger variableName text =>
    variableName ++ " must be an integer, got " ++ Text.quote text
  | portOutOfRange port => "Port out of range: " ++ toString port
  | unknownLogLevel word =>
    "Unknown log level: " ++ word ++ " (expected one of " ++
      String.intercalate ", " (LogLevel.all.map LogLevel.name) ++ ")"
  | negativeLimit limit => "max_variables must not be negative: " ++ toString limit

structure Settings where
  host : String := "127.0.0.1"
  port : Int := 3000
  logLevel : String := "WARNING"
  openBrowser : Bool := false
  maxVariables : Int := 12
  port_range : 0 < port ∧ port < 65536 := by decide
  logLevel_known : (LogLevel.ofName? logLevel).isSome = true := by decide
  maxVariables_nonneg : 0 ≤ maxVariables := by decide

structure Changes where
  host : Option String := none
  port : Option Int := none
  logLevel : Option String := none
  openBrowser : Option Bool := none
  maxVariables : Option Int := none
  deriving DecidableEq, Repr

/-- The changes of both, the second winning where both change a setting. -/
def Changes.merge (a b : Changes) : Changes where
  host := b.host.or a.host
  port := b.port.or a.port
  logLevel := b.logLevel.or a.logLevel
  openBrowser := b.openBrowser.or a.openBrowser
  maxVariables := b.maxVariables.or a.maxVariables

/-- Environment variables, the first entry of a name counting. -/
abbrev Environment := List (String × String)

namespace Settings

def defaults : Settings := {}

def level (s : Settings) : LogLevel := (LogLevel.ofName? s.logLevel).get s.logLevel_known

def check (host : String) (port : Int) (logLevel : String) (openBrowser : Bool)
    (maxVariables : Int) : Except SettingsError Settings :=
  if port_range : 0 < port ∧ port < 65536 then
    if logLevel_known : (LogLevel.ofName? logLevel).isSome = true then
      if maxVariables_nonneg : 0 ≤ maxVariables then
        .ok { host, port, logLevel, openBrowser, maxVariables, port_range, logLevel_known,
              maxVariables_nonneg }
      else .error (.negativeLimit maxVariables)
    else .error (.unknownLogLevel logLevel)
  else .error (.portOutOfRange port)

def override (s : Settings) (c : Changes) : Except SettingsError Settings :=
  check (c.host.getD s.host) (c.port.getD s.port) (c.logLevel.getD s.logLevel)
    (c.openBrowser.getD s.openBrowser) (c.maxVariables.getD s.maxVariables)

/-- An integer variable of the environment. Absent and empty mean the default. -/
def readInteger (env : Environment) (variableName : String) (default : Int) :
    Except SettingsError Int :=
  match env.lookup variableName with
  | none => .ok default
  | some text =>
    if text = "" then .ok default
    else
      match Text.readInteger? text with
      | some n => .ok n
      | none => .error (.notInteger variableName text)

def ofEnvironment (env : Environment) : Except SettingsError Settings :=
  match readInteger env "PROPLOGIC_PORT" defaults.port with
  | .error e => .error e
  | .ok port =>
    match readInteger env "PROPLOGIC_MAX_VARIABLES" defaults.maxVariables with
    | .error e => .error e
    | .ok maxVariables =>
      check ((env.lookup "PROPLOGIC_HOST").getD defaults.host) port
        ((env.lookup "PROPLOGIC_LOG_LEVEL").getD defaults.logLevel) defaults.openBrowser
        maxVariables

inductive Revision where
  | fresh (c : Changes)
  | environment (env : Environment)
  | changed (c : Changes)
  deriving DecidableEq, Repr

def revise (s : Settings) : Revision → Except SettingsError Settings
  | .fresh c => defaults.override c
  | .environment env => ofEnvironment env
  | .changed c => s.override c

/-- The settings in force after a revision: the present ones if it fails. -/
def after (s : Settings) (r : Revision) : Settings := (s.revise r).toOption.getD s

def revisions (s : Settings) : List Revision → List (Except SettingsError Settings)
  | [] => []
  | r :: more => s.revise r :: (s.after r).revisions more

end Settings

end Sentential
