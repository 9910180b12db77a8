import Sentential.Text.Quoted
import Sentential.Token

/-!
# Displayed tokens

For inspection a token is shown with its kind, its value and its position: truth values with a
capital letter, the codes of operators and brackets in quotes.
-/
namespace Sentential

def Side.code : Side → String
  | left => "LEFT"
  | right => "RIGHT"

namespace Lexeme

variable {α : Type}

def kind : Lexeme α → String
  | operand _ => "OPERAND"
  | operator _ => "OPERATOR"
  | bracket _ => "BRACKET"

def displayedValue : Lexeme Bool → String
  | operand true => "True"
  | operand false => "False"
  | operator op => Text.quote op.code
  | bracket side => Text.quote side.code

end Lexeme

def Token.display (t : Token Bool) : String :=
  "Token(" ++ t.lexeme.kind ++ ", " ++ t.lexeme.displayedValue ++ ", @" ++ toString t.position ++
    ")"

end Sentential
