import Sentential.Connective

/-!
# Tokens

A lexeme is an operand, an operator or a bracket. A token is a lexeme with the offset of its first
character in the source. Operands are of any type: truth values in a closed expression.
-/
namespace Sentential

inductive Side where
  | left
  | right
  deriving DecidableEq, Repr

def Side.symbol : Side → Char
  | left => '('
  | right => ')'

def keyword : Bool → List Char
  | true => ['t', 'r', 'u', 'e']
  | false => ['f', 'a', 'l', 's', 'e']

inductive Lexeme (α : Type) where
  | operand (value : α)
  | operator (op : Operator)
  | bracket (side : Side)
  deriving DecidableEq, Repr

structure Token (α : Type) where
  lexeme : Lexeme α
  position : Nat
  deriving DecidableEq, Repr

variable {α β : Type}

namespace Lexeme

def map (f : α → β) : Lexeme α → Lexeme β
  | operand value => operand (f value)
  | operator op => operator op
  | bracket side => bracket side

def spelling (spell : α → List Char) : Lexeme α → List Char
  | operand value => spell value
  | operator op => [op.symbol]
  | bracket side => [side.symbol]

end Lexeme

namespace Token

def shift (offset : Nat) (t : Token α) : Token α := { t with position := t.position + offset }

end Token

end Sentential
