import Sentential.Text.Line
import Sentential.Text.Printable

/-!
# Texts in lines

The lines of a text follow one another, each with one line end behind it, and the last one may do
without. There is only one way to see a text so, and a text of printable characters is one line.
-/
namespace Sentential.Text

variable {s line rest : List Char} {c : Char} {ls : List (List Char)}

def OneLine (line : List Char) : Prop := ∀ c ∈ line, isLineEnd c = false

-- Decided along the text: a wider import would have it decided by going through all characters.
instance (line : List Char) : Decidable (OneLine line) :=
  List.decidableBAll (isLineEnd · = false) line

/-- The text is made of these lines. -/
inductive Lined : List Char → List (List Char) → Prop where
  | nil : Lined [] []
  | last {line : List Char} : OneLine line → line ≠ [] → Lined line [line]
  | cons {line rest : List Char} {c : Char} {ls : List (List Char)} :
      OneLine line → isLineEnd c = true → Lined rest ls → Lined (line ++ c :: rest) (line :: ls)

theorem lines_append (h : OneLine line) (hc : isLineEnd c = true) (rest : List Char) :
    lines (line ++ c :: rest) = line :: lines rest := by
  induction line with
  | nil => simp only [List.nil_append, lines, hc, ↓reduceIte]
  | cons d line ih =>
    obtain ⟨hd, hline⟩ := List.forall_mem_cons.mp h
    rw [List.cons_append, lines, if_neg (by simp [hd]), ih hline]

theorem lines_of_oneLine (h : OneLine line) (hne : line ≠ []) : lines line = [line] := by
  induction line with
  | nil => exact absurd rfl hne
  | cons d line ih =>
    obtain ⟨hd, hline⟩ := List.forall_mem_cons.mp h
    rw [lines, if_neg (by simp [hd])]
    cases line with
    | nil => rfl
    | cons e line => rw [ih hline (List.cons_ne_nil e line)]

theorem Lined.cons_char (h : Lined s ls) (hc : isLineEnd c = false) :
    Lined (c :: s) ((c :: ls.headD []) :: ls.tail) := by
  cases h with
  | nil => exact .last (List.forall_mem_cons.mpr ⟨hc, nofun⟩) (List.cons_ne_nil c [])
  | last hline hne => exact .last (List.forall_mem_cons.mpr ⟨hc, hline⟩) (List.cons_ne_nil c _)
  | cons hline he hrest => exact .cons (List.forall_mem_cons.mpr ⟨hc, hline⟩) he hrest

theorem lined_lines (s : List Char) : Lined s (lines s) := by
  induction s with
  | nil => exact .nil
  | cons c s ih =>
    cases hc : isLineEnd c with
    | true =>
      rw [lines, if_pos hc]
      have hnil : OneLine [] := nofun
      exact .cons hnil hc ih
    | false =>
      have hcons := ih.cons_char hc
      rw [lines, if_neg (by simp [hc])]
      cases hs : lines s <;> simpa [hs] using hcons

theorem lined_iff : Lined s ls ↔ ls = lines s := by
  constructor
  · intro h
    induction h with
    | nil => rfl
    | last hline hne => exact (lines_of_oneLine hline hne).symm
    | cons hline hc _ ih => rw [lines_append hline hc, ih]
  · rintro rfl
    exact lined_lines s

theorem unifyNewlines_of_not_mem (h : '\r' ∉ s) : unifyNewlines s = s := by
  induction s with
  | nil => rfl
  | cons c s ih =>
    obtain ⟨hc, hs⟩ := not_or.mp (mt List.mem_cons.mpr h)
    rw [unifyNewlines, ih hs]
    · exact fun _ hr => absurd hr.symm hc
    · exact fun hr => absurd hr.symm hc

/-! ## Printable characters -/

theorem not_mem_range_of_isPrintable (h : isPrintable c = true) {r : Nat × Nat}
    (hr : r ∈ unprintableRanges) : ¬(r.1 ≤ c.toNat ∧ c.toNat ≤ r.2) := by
  simp only [isPrintable, Bool.not_eq_true', List.any_eq_false] at h
  simpa using h r hr

theorem isLineEnd_of_isPrintable (h : isPrintable c = true) : isLineEnd c = false := by
  have hcontrol := not_mem_range_of_isPrintable h (r := (0x0, 0x1f)) (by decide)
  have hlatin := not_mem_range_of_isPrintable h (r := (0x7f, 0xa0)) (by decide +kernel)
  have hseparator := not_mem_range_of_isPrintable h (r := (0x2028, 0x202f)) (by decide +kernel)
  rw [← Bool.not_eq_true]
  intro hend
  simp only [isLineEnd, Bool.or_eq_true, beq_iff_eq] at hend
  rcases hend with (((((((rfl | rfl) | rfl) | rfl) | rfl) | rfl) | hc) | hc) | hc
  iterate 6 exact hcontrol (by decide)
  · exact hlatin (by omega)
  · exact hseparator (by omega)
  · exact hseparator (by omega)

/-- The character is one of the printable characters of ASCII. -/
def IsAscii (c : Char) : Prop := 0x20 ≤ c.toNat ∧ c.toNat ≤ 0x7e

instance (c : Char) : Decidable (IsAscii c) := inferInstanceAs (Decidable (_ ∧ _))

theorem isPrintable_of_isAscii (h : IsAscii c) : isPrintable c = true := by
  have hranges : ∀ r ∈ unprintableRanges, r.2 < 0x20 ∨ 0x7e < r.1 := by decide +kernel
  obtain ⟨hlow, hhigh⟩ := h
  simp only [isPrintable, Bool.not_eq_true', List.any_eq_false, Bool.and_eq_true,
    decide_eq_true_eq, not_and]
  intro r hr hle
  have hr := hranges r hr
  omega

def Printable (s : List Char) : Prop := ∀ c ∈ s, isPrintable c = true

instance (s : List Char) : Decidable (Printable s) :=
  List.decidableBAll (isPrintable · = true) s

def Ascii (s : List Char) : Prop := ∀ c ∈ s, IsAscii c

instance (s : List Char) : Decidable (Ascii s) := List.decidableBAll IsAscii s

theorem Ascii.printable (h : Ascii s) : Printable s := fun c hc =>
  isPrintable_of_isAscii (h c hc)

theorem Printable.append {t : List Char} (hs : Printable s) (ht : Printable t) :
    Printable (s ++ t) :=
  List.forall_mem_append.mpr ⟨hs, ht⟩

theorem Printable.oneLine (h : Printable s) : OneLine s := fun c hc =>
  isLineEnd_of_isPrintable (h c hc)

end Sentential.Text
