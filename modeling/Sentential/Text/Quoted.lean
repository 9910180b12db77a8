import Sentential.Text.Hexadecimal
import Sentential.Text.Printable

/-!
# Quoted text

A quoted text stands between apostrophes, or between double quotes when it holds an apostrophe and
no double quote. The delimiter and the backslash are escaped by a backslash, tabulator, line feed
and carriage return by their letters, and any other unprintable character by its code point in two,
four or eight lower-case hexadecimal digits.
-/
namespace Sentential.Text

def apostrophe : Char := '\x27'

def doubleQuote : Char := '\x22'

def backslash : Char := '\x5c'

/-- The code point of a character in the shortest of the three escape forms that holds it. -/
def codeEscape (c : Char) : List Char :=
  if c.toNat < 0x100 then backslash :: 'x' :: hexDigits 2 c.toNat
  else if c.toNat < 0x10000 then backslash :: 'u' :: hexDigits 4 c.toNat
  else backslash :: 'U' :: hexDigits 8 c.toNat

def escape (delimiter c : Char) : List Char :=
  if c = delimiter ∨ c = backslash then [backslash, c]
  else if c = '\t' then [backslash, 't']
  else if c = '\n' then [backslash, 'n']
  else if c = '\r' then [backslash, 'r']
  else if isPrintable c then [c]
  else codeEscape c

/-- The quote that needs the fewest escapes, an apostrophe where both do equally well. -/
def delimiter (s : List Char) : Char :=
  if apostrophe ∈ s ∧ doubleQuote ∉ s then doubleQuote else apostrophe

def quoted (s : List Char) : List Char :=
  delimiter s :: s.flatMap (escape (delimiter s)) ++ [delimiter s]

def quote (s : String) : String := String.ofList (quoted s.toList)

end Sentential.Text
