/-!
# Lines

Reading a text file turns every carriage return, alone or before a line feed, into a line feed. A
line then ends at a line feed or at one of the other separators below, and the end of the text
closes the last line only when something stands on it.
-/
namespace Sentential.Text

def unifyNewlines : List Char → List Char
  | [] => []
  | '\r' :: '\n' :: rest => '\n' :: unifyNewlines rest
  | '\r' :: rest => '\n' :: unifyNewlines rest
  | c :: rest => c :: unifyNewlines rest

/-- Line feed, vertical tabulator, form feed, the file, group and record separators, next line, and
the line and paragraph separators. -/
def isLineEnd (c : Char) : Bool :=
  c == '\n' || c == '\x0b' || c == '\x0c' || c == '\x1c' || c == '\x1d' || c == '\x1e' ||
    c.toNat == 0x85 || c.toNat == 0x2028 || c.toNat == 0x2029

def lines : List Char → List (List Char)
  | [] => []
  | c :: rest =>
    if isLineEnd c then [] :: lines rest
    else
      match lines rest with
      | [] => [[c]]
      | line :: more => (c :: line) :: more

/-- The last line of a text that is printed with a line end behind it. -/
def lastLine (s : String) : String :=
  String.ofList (((lines (unifyNewlines (s.toList ++ ['\n']))).getLast?).getD [])

end Sentential.Text
