import Sentential.Text.Quoted
import Sentential.Text.Run
import Sentential.Token

/-!
# From text to tokens

A vocabulary says which characters are letters and which words of letters are operands. A maximal
run of letters has to be such a word. Outside words stand operator glyphs, brackets and spaces, and
spaces are skipped. The first piece that is none of these is the error.
-/
namespace Sentential

inductive LexicalError where
  | unknownCharacter (c : Char) (position : Nat)
  | badOperand (word : List Char) (position : Nat)
  deriving DecidableEq, Repr

namespace LexicalError

def position : LexicalError → Nat
  | unknownCharacter _ position => position
  | badOperand _ position => position

def code : LexicalError → String
  | unknownCharacter _ _ => "UNKNOWN_CHAR"
  | badOperand _ _ => "OPERAND_FORMAT"

def cause : LexicalError → String
  | unknownCharacter c _ => "Unknown character " ++ Text.quote c.toString
  | badOperand word _ =>
    "Operand " ++ Text.quote (String.ofList word) ++ " is not 'true' or 'false'"

def message (e : LexicalError) : String := e.cause ++ " at position " ++ toString e.position

def shift (offset : Nat) : LexicalError → LexicalError
  | unknownCharacter c position => unknownCharacter c (position + offset)
  | badOperand word position => badOperand word (position + offset)

end LexicalError

structure Vocabulary (α : Type) where
  isLetter : Char → Bool
  operand? : List Char → Option α

def isLowerLetter (c : Char) : Bool := 'a' ≤ c && c ≤ 'z'

def truthValue? (word : List Char) : Option Bool :=
  if word = keyword true then some true
  else if word = keyword false then some false
  else none

/-- The vocabulary of closed expressions: the two truth keywords among lower-case words. -/
def Vocabulary.closed : Vocabulary Bool := ⟨isLowerLetter, truthValue?⟩

namespace Token

variable {α : Type}

def readWord (v : Vocabulary α) (position : Nat) (word : List Char) :
    Except LexicalError (Option (Lexeme α)) :=
  match v.operand? word with
  | some value => .ok (some (.operand value))
  | none => .error (.badOperand word position)

def readSymbol (position : Nat) (c : Char) : Except LexicalError (Option (Lexeme α)) :=
  match Operator.ofSymbol? c with
  | some op => .ok (some (.operator op))
  | none =>
    if c = Side.left.symbol then .ok (some (.bracket .left))
    else if c = Side.right.symbol then .ok (some (.bracket .right))
    else if c = ' ' then .ok none
    else .error (.unknownCharacter c position)

/-- The lexeme of one piece of text, or none for a space. -/
def readRun (v : Vocabulary α) (position : Nat) : List Char → Except LexicalError (Option (Lexeme α))
  | [] => .ok none
  | c :: rest =>
    if v.isLetter c then readWord v position (c :: rest) else readSymbol position c

def readRuns (v : Vocabulary α) (position : Nat) :
    List (List Char) → Except LexicalError (List (Token α))
  | [] => .ok []
  | run :: more =>
    match readRun v position run with
    | .error e => .error e
    | .ok none => readRuns v (position + run.length) more
    | .ok (some lexeme) =>
      match readRuns v (position + run.length) more with
      | .error e => .error e
      | .ok tokens => .ok (⟨lexeme, position⟩ :: tokens)

def lexWith (v : Vocabulary α) (s : List Char) : Except LexicalError (List (Token α)) :=
  readRuns v 0 (Text.runs v.isLetter s)

def lex (s : List Char) : Except LexicalError (List (Token Bool)) := lexWith .closed s

end Token

end Sentential
