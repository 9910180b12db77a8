import Sentential.Connective

/-!
# The reference table of the connectives

A boxed table with one line for each operator: glyph, name, tier and truth condition, the last three
padded to the width of their columns.
-/
namespace Sentential

/-- A text filled up with spaces to a width. A longer text is kept whole. -/
def padRight (width : Nat) (s : String) : String :=
  s ++ String.ofList (List.replicate (width - s.length) ' ')

namespace Operator

def referenceLine (op : Operator) : String :=
  "║   " ++ op.symbol.toString ++ "   ║ " ++ padRight 13 op.title ++ " ║ " ++
    padRight 4 (toString op.rank) ++ " ║ " ++ padRight 35 op.truthCondition ++ " ║"

def referenceHead : List String :=
  ["╔═══════╦═══════════════╦══════╦═════════════════════════════════════╗",
    "║ Glyph ║ Name          ║ Tier ║ Truth condition                     ║",
    "╠═══════╬═══════════════╬══════╬═════════════════════════════════════╣"]

def referenceFoot : String :=
  "╚═══════╩═══════════════╩══════╩═════════════════════════════════════╝"

def reference : String :=
  String.intercalate "\n" (referenceHead ++ all.map referenceLine ++ [referenceFoot])

end Operator

end Sentential
