import Sentential.Text.Blank
import Sentential.Text.Digit

/-!
# Integers in text

An integer text is an optional sign and decimal digits of any script, white space around the whole
and single underscores between digits allowed. Its value is the decimal value of its digits. A text
with too many digits is not read, whatever the digits are.
-/
namespace Sentential.Text

/-- The digits that follow a first digit. An underscore counts only in front of a digit. -/
def readDigits (value : Nat) : List Char → Option Nat
  | [] => some value
  | '_' :: c :: rest => (digitValue? c).bind fun d => readDigits (10 * value + d) rest
  | c :: rest => (digitValue? c).bind fun d => readDigits (10 * value + d) rest

def readNatural? : List Char → Option Nat
  | [] => none
  | c :: rest => (digitValue? c).bind fun d => readDigits d rest

def readSigned? : List Char → Option Int
  | '-' :: rest => (readNatural? rest).map fun n => -(n : Int)
  | '+' :: rest => (readNatural? rest).map fun n => (n : Int)
  | text => (readNatural? text).map fun n => (n : Int)

def maxDigits : Nat := 4300

def digitCount (text : List Char) : Nat := text.countP fun c => (digitValue? c).isSome

def readInteger? (s : String) : Option Int :=
  if digitCount s.toList ≤ maxDigits then readSigned? (trimWith isWhiteSpace s.toList) else none

end Sentential.Text
