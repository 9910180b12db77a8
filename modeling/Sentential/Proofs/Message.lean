import Mathlib.Tactic.SplitIfs
import Sentential.Expression
import Sentential.Proofs.Lines

/-!
# Messages

What a message quotes from a source is quoted so that it is printable, whatever the source holds.
The rest of a message is printable as well, so every message takes one line.
-/
namespace Sentential

namespace Text

variable {s : List Char} {c : Char}

theorem printable_hexDigits (width n : Nat) : Printable (hexDigits width n) := by
  have hdigit : ∀ k < 16, IsAscii (hexDigit k) := by decide
  induction width generalizing n with
  | zero => exact nofun
  | succ width ih =>
    refine (ih (n / 16)).append (List.forall_mem_singleton.mpr ?_)
    exact isPrintable_of_isAscii (hdigit _ (Nat.mod_lt n (by decide)))

theorem printable_backslash (h : IsAscii c) : Printable [backslash, c] :=
  Ascii.printable (List.forall_mem_cons.mpr ⟨by decide, List.forall_mem_singleton.mpr h⟩)

theorem printable_codeEscape (c : Char) : Printable (codeEscape c) := by
  unfold codeEscape
  split_ifs
  · exact (printable_backslash (by decide)).append (printable_hexDigits 2 _)
  · exact (printable_backslash (by decide)).append (printable_hexDigits 4 _)
  · exact (printable_backslash (by decide)).append (printable_hexDigits 8 _)

theorem isAscii_delimiter (s : List Char) : IsAscii (delimiter s) := by
  unfold delimiter
  split_ifs <;> decide

theorem printable_escape {delimiter : Char} (hd : IsAscii delimiter) (c : Char) :
    Printable (escape delimiter c) := by
  unfold escape
  split_ifs with h ht hn hr hp
  · have hc : IsAscii c := by
      rcases h with rfl | rfl
      · exact hd
      · decide
    exact printable_backslash hc
  · exact printable_backslash (by decide)
  · exact printable_backslash (by decide)
  · exact printable_backslash (by decide)
  · exact List.forall_mem_singleton.mpr hp
  · exact printable_codeEscape c

theorem printable_quoted (s : List Char) : Printable (quoted s) := by
  have hd := isAscii_delimiter s
  have hdelimiter : Printable [delimiter s] :=
    Ascii.printable (List.forall_mem_singleton.mpr hd)
  refine (hdelimiter.append fun c hc => ?_).append hdelimiter
  obtain ⟨d, -, hc⟩ := List.mem_flatMap.mp hc
  exact printable_escape hd d c hc

theorem printable_quote (s : String) : Printable (quote s).toList := by
  rw [quote, String.toList_ofList]
  exact printable_quoted s.toList

theorem printable_toString (n : Nat) : Printable (toString n).toList := by
  refine Ascii.printable fun c hc => ?_
  have hdigits : (toString n).toList = Nat.toDigits 10 n := Nat.toList_repr
  rw [hdigits] at hc
  have hdigit := Char.isDigit_iff_toNat.mp
    (Nat.isDigit_of_mem_toDigits (by decide) (Nat.le_refl 10) hc)
  rw [show '0'.toNat = 48 from rfl, show '9'.toNat = 57 from rfl] at hdigit
  exact ⟨by omega, by omega⟩

end Text

open Text (Printable)

theorem printable_keyword (value : Bool) : Printable (keyword value) :=
  Text.Ascii.printable (by cases value <;> decide)

theorem Lexeme.printable_spelling (x : Lexeme Bool) : Printable (x.spelling keyword) := by
  rcases x with value | op | side
  · exact printable_keyword value
  · have hop : Text.isPrintable op.symbol = true := by
      rcases op with _ | (_ | _ | _ | _) <;> decide +kernel
    exact List.forall_mem_singleton.mpr hop
  · exact Text.Ascii.printable (by cases side <;> decide)

theorem LexicalError.printable_message (e : LexicalError) : Printable e.message.toList := by
  have hcause : Printable e.cause.toList := by
    cases e with
    | unknownCharacter c position =>
      unfold cause
      simp only [String.toList_append]
      exact (Text.Ascii.printable (by decide)).append (Text.printable_quote _)
    | badOperand word position =>
      unfold cause
      simp only [String.toList_append]
      exact ((Text.Ascii.printable (by decide)).append (Text.printable_quote _)).append
        (Text.Ascii.printable (by decide))
  simp only [message, String.toList_append]
  exact (hcause.append (Text.Ascii.printable (by decide))).append (Text.printable_toString _)

theorem GrammarError.printable_message (e : GrammarError Bool) : Printable e.message.toList := by
  have hcause : Printable e.cause.toList := by
    cases e with
    | unexpected token =>
      have hspelling : Printable (String.ofList (token.lexeme.spelling keyword)).toList := by
        rw [String.toList_ofList]
        exact token.lexeme.printable_spelling
      unfold cause
      rw [String.toList_append]
      exact (Text.Ascii.printable (by decide)).append hspelling
    | operandExpected =>
      unfold cause
      exact Text.Ascii.printable (by decide)
    | unclosed opening =>
      unfold cause
      simp only [String.toList_append]
      exact ((Text.Ascii.printable (by decide)).append (Text.printable_toString _)).append
        (Text.Ascii.printable (by decide))
  have hplace : Printable e.place.toList := by
    unfold place
    split
    · simp only [String.toList_append]
      exact (Text.Ascii.printable (by decide)).append (Text.printable_toString _)
    · exact Text.Ascii.printable (by decide)
  simp only [message, String.toList_append]
  exact (hcause.append (Text.Ascii.printable (by decide))).append hplace

theorem SyntaxError.printable_message (e : SyntaxError) : Printable e.message.toList := by
  cases e with
  | lexical error => exact error.printable_message
  | grammatical error => exact error.printable_message

end Sentential
