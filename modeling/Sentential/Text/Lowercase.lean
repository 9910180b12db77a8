/-!
# Lower case

Words of commands and levels are compared without regard to case. They consist of ASCII letters, so
only the characters matter whose lower-case form holds an ASCII letter: A to Z, the Kelvin sign, and
the dotted capital I, which becomes a letter i with a combining dot. All others stay as they are.
-/
namespace Sentential.Text

def kelvinSign : Char := '\u212a'

def dottedCapitalI : Char := '\u0130'

def combiningDot : Char := '\u0307'

def lowerChar (c : Char) : List Char :=
  if c = kelvinSign then ['k']
  else if c = dottedCapitalI then ['i', combiningDot]
  else [c.toLower]

def lower (s : List Char) : List Char := s.flatMap lowerChar

def lowerString (s : String) : String := String.ofList (lower s.toList)

end Sentential.Text
