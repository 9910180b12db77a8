import Sentential.Cursor
import Sentential.Formula.Parser

/-!
# Reading tokens by turns

One cursor over the tokens of a source may serve several readers. Each takes tokens from where the
last one stopped. A parse looks at the token under the cursor and takes it only if it fits, so one
that fails stops at the token at fault.
-/
namespace Sentential

abbrev TokenStream := Cursor (Token Bool)

namespace TokenStream

/-- Parses on from a state, taking the tokens that fit one by one. -/
def parseFrom (state : Parser.State Bool) (s : TokenStream) :
    Except (GrammarError Bool) (Formula Bool) × TokenStream :=
  match _h : s.peek with
  | none => (state.finish, s)
  | some token =>
    match state.step token with
    | .ok next => parseFrom next (Cursor.next s).2
    | .error e => (.error e, s)
termination_by s.rest.length
decreasing_by
  rw [Cursor.rest_of_peek _h]
  exact Nat.lt_succ_self _

def parse (s : TokenStream) : Except (GrammarError Bool) (Formula Bool) × TokenStream :=
  parseFrom {} s

inductive Request where
  | next
  | peek
  | count
  | parse
  deriving DecidableEq, Repr

inductive Reply where
  | token (token : Option (Token Bool))
  | count (n : Nat)
  | parsed (result : Except (GrammarError Bool) (Formula Bool))

def answer (s : TokenStream) : Request → Reply × TokenStream
  | .next => (.token (Cursor.next s).1, (Cursor.next s).2)
  | .peek => (.token (Cursor.peek s), s)
  | .count => (.count s.items.length, s)
  | .parse => (.parsed s.parse.1, s.parse.2)

/-- The answers to a sequence of requests, each with the cursor after it. -/
def answers (s : TokenStream) : List Request → List (Reply × TokenStream)
  | [] => []
  | r :: more => s.answer r :: answers (s.answer r).2 more

end TokenStream

end Sentential
