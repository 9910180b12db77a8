import Sentential.Text.Digit
import Sentential.Text.Numeral
import Sentential.Text.Quoted

/-!
# Arguments and switches

A page of the command line knows some switches besides the request for help. An argument is a switch
if it names one, in full or by a beginning that no other switch shares, with a value behind an
equals sign or not. All arguments of a page are told apart first. They are then read from left to
right, and the first that has no place is the error.
-/
namespace Sentential.CommandLine

inductive SwitchKind where
  | flag
  | text
  | integer
  deriving DecidableEq, Repr

structure Switch where
  name : String
  kind : SwitchKind
  deriving DecidableEq, Repr

inductive SwitchValue where
  | present
  | text (value : String)
  | integer (value : Int)
  deriving DecidableEq, Repr

inductive UsageError where
  | ambiguous (argument : String) (candidates : List String)
  | valueExpected (switch : String)
  | valueIgnored (switch : String) (value : String)
  | notInteger (switch : String) (value : String)
  | unknownCommand (word : String) (commands : List String)
  | expressionRequired
  | unrecognized (arguments : List String)
  deriving DecidableEq, Repr

def UsageError.message : UsageError → String
  | ambiguous argument candidates =>
    "ambiguous option: " ++ argument ++ " could match " ++ String.intercalate ", " candidates
  | valueExpected switch => "argument " ++ switch ++ ": expected one argument"
  | valueIgnored switch value =>
    "argument " ++ switch ++ ": ignored explicit argument " ++ Text.quote value
  | notInteger switch value =>
    "argument " ++ switch ++ ": invalid int value: " ++ Text.quote value
  | unknownCommand word commands =>
    "argument command: invalid choice: " ++ Text.quote word ++ " (choose from " ++
      String.intercalate ", " (commands.map Text.quote) ++ ")"
  | expressionRequired => "the following arguments are required: expression"
  | unrecognized arguments =>
    "unrecognized arguments: " ++ String.intercalate " " arguments

inductive Role where
  | word
  | separator
  | help (ignored : Option String)
  | switch (s : Switch) (value : Option String)
  | unknown
  deriving DecidableEq, Repr

def helpName : String := "--help"

inductive Named where
  | help
  | switch (s : Switch)
  deriving DecidableEq, Repr

def Named.name : Named → String
  | help => helpName
  | switch s => s.name

def Named.role (value : Option String) : Named → Role
  | help => .help value
  | switch s => .switch s value

def named (switches : List Switch) : List Named := .help :: switches.map .switch

def splitEquals (argument : List Char) : List Char × Option String :=
  (argument.takeWhile (· ≠ '='),
    match argument.dropWhile (· ≠ '=') with
    | [] => none
    | _ :: value => some (String.ofList value))

/-- What is left of an argument behind the short request for help, which may be repeated in it and
may have an equals sign behind its first letter. The request takes no value, so a rest has no place,
and neither has an empty value. -/
def shortHelp : List Char → Option String
  | ['='] => some ""
  | '=' :: value => unplaced value
  | rest => unplaced rest
where
  unplaced (rest : List Char) : Option String :=
    match rest.dropWhile (· = 'h') with
    | [] => none
    | value => some (String.ofList value)

def isDigits (s : List Char) : Bool := !s.isEmpty && s.all Text.isDigit

/-- Whether a text reads as a negative number, so that it is a value and no switch. A line feed may
follow the number. -/
def isNegativeNumber : List Char → Bool
  | '-' :: rest =>
    let digits := if rest.getLast? = some '\n' then rest.dropLast else rest
    match digits.dropWhile Text.isDigit with
    | [] => isDigits digits
    | '.' :: fraction => isDigits fraction
    | _ => false
  | _ => false

def unnamedRole (argument : List Char) : Role :=
  if isNegativeNumber argument || argument.contains ' ' then .word else .unknown

def longRole (switches : List Switch) (argument : List Char) : Except UsageError Role :=
  let (name, value) := splitEquals argument
  match (named switches).find? fun n => n.name.toList = name with
  | some n => .ok (n.role value)
  | none =>
    match (named switches).filter fun n => name.isPrefixOf n.name.toList with
    | [] => .ok (unnamedRole argument)
    | [n] => .ok (n.role value)
    | several => .error (.ambiguous (String.ofList argument) (several.map Named.name))

/-- The role of an argument that no separator precedes. -/
def role (switches : List Switch) (argument : List Char) : Except UsageError Role :=
  match argument with
  | '-' :: '-' :: [] => .ok .separator
  | '-' :: '-' :: _ => longRole switches argument
  | '-' :: 'h' :: rest => .ok (.help (shortHelp rest))
  | '-' :: _ :: _ => .ok (unnamedRole argument)
  | _ => .ok .word

/-- The roles of a list of arguments. Behind the first separator all are words. -/
def roles (switches : List Switch) : List String → Except UsageError (List (String × Role))
  | [] => .ok []
  | argument :: more =>
    match role switches argument.toList with
    | .error e => .error e
    | .ok .separator => .ok ((argument, .separator) :: more.map fun a => (a, .word))
    | .ok r => (roles switches more).map ((argument, r) :: ·)

inductive Place where
  | nothing
  | expression
  | command
  deriving DecidableEq, Repr

/-- What a page makes of its arguments. A command takes all arguments behind it. -/
structure Reading where
  settings : List (String × SwitchValue) := []
  expression : Option String := none
  command : Option (String × List String) := none
  extras : List String := []
  deriving DecidableEq, Repr

inductive Stop where
  | help
  | usage (error : UsageError)
  deriving DecidableEq, Repr

def convert (s : Switch) (value : String) : Except UsageError SwitchValue :=
  match s.kind with
  | .flag => .error (.valueIgnored s.name value)
  | .text => .ok (.text value)
  | .integer =>
    match Text.readInteger? value with
    | some n => .ok (.integer n)
    | none => .error (.notInteger s.name value)

namespace Reading

def set (r : Reading) (s : Switch) (value : String) : Except Stop Reading :=
  match convert s value with
  | .ok v => .ok { r with settings := r.settings ++ [(s.name, v)] }
  | .error e => .error (.usage e)

def flag (r : Reading) (s : Switch) : Reading :=
  { r with settings := r.settings ++ [(s.name, .present)] }

def addExtra (r : Reading) (argument : String) : Reading :=
  { r with extras := r.extras ++ [argument] }

def helpDisplay : String := "-h/--help"

def extend (place : Place) (r : Reading) : List (String × Role) → Except Stop Reading
  | [] => .ok r
  | (_, .help none) :: _ => .error .help
  | (_, .help (some value)) :: _ => .error (.usage (.valueIgnored helpDisplay value))
  | (argument, .unknown) :: more => (r.addExtra argument).extend place more
  | (_, .switch s (some value)) :: more =>
    match r.set s value with
    | .ok r => r.extend place more
    | .error e => .error e
  | (_, .switch s none) :: more =>
    if s.kind = .flag then (r.flag s).extend place more
    else
      match more with
      | (value, .word) :: more =>
        match r.set s value with
        | .ok r => r.extend place more
        | .error e => .error e
      | _ => .error (.usage (.valueExpected s.name))
  | (separator, .separator) :: more =>
    match place, more with
    | .command, _ :: _ => .ok { r with command := some (separator, more.map (·.1)) }
    | _, _ => (r.addExtra separator).extend place more
  | (word, .word) :: more =>
    match place with
    | .nothing => (r.addExtra word).extend .nothing more
    | .expression => { r with expression := some word }.extend .nothing more
    | .command => .ok { r with command := some (word, more.map (·.1)) }

def text? (r : Reading) (name : String) : Option String :=
  r.settings.reverse.findSome? fun
    | (n, .text value) => if n = name then some value else none
    | _ => none

def integer? (r : Reading) (name : String) : Option Int :=
  r.settings.reverse.findSome? fun
    | (n, .integer value) => if n = name then some value else none
    | _ => none

def has (r : Reading) (name : String) : Bool := r.settings.any (·.1 == name)

end Reading

/-- Drops the separator directly before or behind the first word. The value of a switch is no such
word. -/
def dropSeparator : List (String × Role) → List (String × Role)
  | [] => []
  | (separator, .separator) :: more =>
    match more with
    | [] => [(separator, .separator)]
    | _ :: _ => more
  | (word, .word) :: more =>
    match more with
    | (_, .separator) :: more => (word, .word) :: more
    | _ => (word, .word) :: more
  | first :: more =>
    match first.2, more with
    | .switch ⟨_, .text⟩ none, value :: more => first :: value :: dropSeparator more
    | .switch ⟨_, .integer⟩ none, value :: more => first :: value :: dropSeparator more
    | _, more => first :: dropSeparator more

/-- Reads the arguments of a page. A separator beside the expression only marks the expression. -/
def readPage (place : Place) (switches : List Switch) (arguments : List String) :
    Except Stop Reading :=
  match roles switches arguments with
  | .error e => .error (.usage e)
  | .ok rs =>
    match Reading.extend place {} (if place = .expression then dropSeparator rs else rs) with
    | .error e => .error e
    | .ok r =>
      if place = .expression && r.expression.isNone then .error (.usage .expressionRequired)
      else .ok r

end Sentential.CommandLine
