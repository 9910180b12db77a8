import Sentential.Proofs.Parsing
import Sentential.Proofs.Renaming

/-!
# Expressions with variables

An open expression can be read without an assignment. Its words are made of all ASCII letters, and
its operands are the keywords and the single capitals, of which T and F are constants and the others
variables. Putting keywords for constants and variables turns each run of letters into one run of
small letters, which is a keyword only if the run was an operand.
-/
namespace Sentential

inductive Atom where
  | constant (value : Bool)
  | named (variableName : Char)
  deriving DecidableEq, Repr

def isCapital (c : Char) : Bool := 'A' ≤ c && c ≤ 'Z'

def isAsciiLetter (c : Char) : Bool := isLowerLetter c || isCapital c

namespace Atom

def ofWord? (word : List Char) : Option Atom :=
  if word = ['t', 'r', 'u', 'e'] ∨ word = ['T'] then some (constant true)
  else if word = ['f', 'a', 'l', 's', 'e'] ∨ word = ['F'] then some (constant false)
  else
    match word with
    | [c] => if isCapital c then some (named c) else none
    | _ => none

def value (ν : String → Bool) : Atom → Bool
  | constant value => value
  | named v => ν v.toString

def value? (σ : Assignment) : Atom → Option Bool
  | constant value => some value
  | named v => σ.lookup v.toString

end Atom

def Vocabulary.atoms : Vocabulary Atom := ⟨isAsciiLetter, Atom.ofWord?⟩

theorem Vocabulary.plain_atoms : Vocabulary.atoms.Plain where
  operator op := by rcases op with _ | (_ | _ | _ | _) <;> decide
  bracket side := by cases side <;> decide
  space := by decide

/-- The truth value of an open formula, if the assignment has one for each of its variables. -/
def Formula.denotation? (σ : Assignment) : Formula Atom → Option Bool
  | operand a => a.value? σ
  | negation body => do
    let a ← body.denotation? σ
    return !a
  | binary .conjunction lhs rhs => do
    let a ← lhs.denotation? σ
    let b ← rhs.denotation? σ
    return a && b
  | binary .disjunction lhs rhs => do
    let a ← lhs.denotation? σ
    let b ← rhs.denotation? σ
    return a || b
  | binary .conditional lhs rhs => do
    let a ← lhs.denotation? σ
    let b ← rhs.denotation? σ
    return !a || b
  | binary .biconditional lhs rhs => do
    let a ← lhs.denotation? σ
    let b ← rhs.denotation? σ
    return a == b

theorem Formula.denotation?_eq {σ : Assignment} {ν : String → Bool} {φ : Formula Atom}
    (h : ∀ a ∈ φ.operands, a.value? σ = some (a.value ν)) :
    φ.denotation? σ = some (φ.map (Atom.value ν)).eval := by
  induction φ with
  | operand a => exact h a List.mem_cons_self
  | negation body ih =>
    rw [denotation?, ih h]
    rfl
  | binary op lhs rhs ihl ihr =>
    simp only [operands, List.forall_mem_append] at h
    cases op <;>
      rw [denotation?, ihl h.1, ihr h.2] <;>
      rfl

namespace Expression

/-- The text is a phrase of the grammar over atoms with the formula. -/
def Phrase (c : Category) (s : List Char) (φ : Formula Atom) : Prop :=
  ∃ w, Token.Spells .atoms s w ∧ Derives c w φ

/-! ## Characters and their replacements -/

def expandChar (ν : String → Bool) (c : Char) : List Char :=
  match constant? c with
  | some value => keyword value
  | none => if isVariable c then keyword (ν c.toString) else [c]

/-- The closed text of an open one, given a truth value for every name. -/
def expand (ν : String → Bool) (s : List Char) : List Char := s.flatMap (expandChar ν)

variable {ν : String → Bool} {c : Char}

theorem constant?_eq_none (h : isCapital c = false) : constant? c = none := by
  unfold constant?
  split
  · cases h
  · cases h
  · rfl

theorem isVariable_iff : isVariable c ↔ isCapital c ∧ constant? c = none := by
  simp only [isVariable, isCapital, Bool.and_eq_true, Option.isNone_iff_eq_none]

theorem isVariable_eq_false (h : isCapital c = false) : isVariable c = false := by
  rw [← Bool.not_eq_true, isVariable_iff, h]
  simp

theorem ofWord?_singleton (c : Char) :
    Atom.ofWord? [c] =
      match constant? c with
      | some value => some (.constant value)
      | none => if isVariable c then some (.named c) else none := by
  by_cases ht : c = 'T'
  · subst ht
    rfl
  · by_cases hf : c = 'F'
    · subst hf
      rfl
    · have hc : constant? c = none := by rw [constant?] <;> assumption
      have hv : isVariable c = isCapital c := by
        rw [isVariable, hc, isCapital, Option.isNone_none, Bool.and_true]
      rw [hc, hv, Atom.ofWord?, if_neg (by simp [ht]), if_neg (by simp [hf])]

theorem ofWord?_named {v : Char} (h : isVariable v) : Atom.ofWord? [v] = some (.named v) := by
  rw [ofWord?_singleton, (isVariable_iff.mp h).2]
  exact if_pos h

theorem expandChar_of_not_isCapital (h : isCapital c = false) : expandChar ν c = [c] := by
  simp [expandChar, constant?_eq_none h, isVariable_eq_false h]

theorem exists_atom_of_isCapital (ν : String → Bool) (h : isCapital c) :
    ∃ a, Atom.ofWord? [c] = some a ∧ expandChar ν c = keyword (a.value ν) := by
  cases hc : constant? c with
  | some value =>
    refine ⟨.constant value, ?_, ?_⟩
    · rw [ofWord?_singleton, hc]
    · simp only [expandChar, hc, Atom.value]
  | none =>
    have hv : isVariable c = true := isVariable_iff.mpr ⟨h, hc⟩
    refine ⟨.named c, ?_, ?_⟩
    · exact ofWord?_named hv
    · simp only [expandChar, hc, hv, ↓reduceIte, Atom.value]

theorem expandChar_ne_nil (ν : String → Bool) (c : Char) : expandChar ν c ≠ [] := by
  cases h : isCapital c with
  | true =>
    obtain ⟨a, -, ha⟩ := exists_atom_of_isCapital ν h
    rw [ha]
    exact keyword_ne_nil _
  | false =>
    rw [expandChar_of_not_isCapital h]
    exact List.cons_ne_nil c []

theorem isLowerLetter_of_mem_expandChar (h : isAsciiLetter c) :
    ∀ d ∈ expandChar ν c, isLowerLetter d := by
  cases hc : isCapital c with
  | true =>
    obtain ⟨a, -, ha⟩ := exists_atom_of_isCapital ν hc
    rw [ha]
    exact fun _ => isLowerLetter_of_mem_keyword
  | false =>
    rw [isAsciiLetter, hc, Bool.or_false] at h
    rw [expandChar_of_not_isCapital hc]
    simpa using h

theorem expandChar_of_not_isAsciiLetter (h : isAsciiLetter c = false) :
    expandChar ν c = [c] ∧ isLowerLetter c = false := by
  rw [isAsciiLetter, Bool.or_eq_false_iff] at h
  exact ⟨expandChar_of_not_isCapital h.2, h.1⟩

/-! ## Words and their replacements -/

/-- A keyword does not stand inside another one. -/
theorem keyword_isolated {a b : List Char} {x y : Bool} (h : a ++ keyword x ++ b = keyword y) :
    a = [] ∧ b = [] := by
  have hl := congrArg List.length h
  simp only [List.length_append] at hl
  have both (h : a.length + b.length = 0) : a = [] ∧ b = [] :=
    ⟨List.length_eq_zero_iff.mp (by omega), List.length_eq_zero_iff.mp (by omega)⟩
  cases x <;> cases y <;> simp only [keyword, List.length_cons, List.length_nil] at hl
  · exact both (by omega)
  · omega
  · -- The longer keyword has one more letter, but neither begins nor ends with the shorter.
    cases a with
    | nil => simp [keyword] at h
    | cons c a =>
      rw [List.length_cons] at hl
      obtain rfl : a = [] := List.length_eq_zero_iff.mp (by omega)
      simp [keyword] at h
  · exact both (by omega)

theorem isCapital_of_isLowerLetter (h : isLowerLetter c) : isCapital c = false := by
  simp only [isLowerLetter, isCapital, Bool.and_eq_true, decide_eq_true_eq,
    Bool.and_eq_false_iff, decide_eq_false_iff_not] at h ⊢
  exact .inr fun hz => absurd (Char.le_trans h.1 hz) (by decide)

theorem expand_of_not_isCapital {s : List Char} (h : ∀ c ∈ s, isCapital c = false) :
    expand ν s = s := by
  induction s with
  | nil => rfl
  | cons c s ih =>
    simp only [List.forall_mem_cons] at h
    rw [expand, List.flatMap_cons, expandChar_of_not_isCapital h.1]
    exact congrArg (c :: ·) (ih h.2)

theorem expand_of_isLowerLetter {w : List Char} (h : ∀ c ∈ w, isLowerLetter c) :
    expand ν w = w :=
  expand_of_not_isCapital fun c hc => isCapital_of_isLowerLetter (h c hc)

theorem ofWord?_eq {w : List Char} (h : ∀ c, w = [c] → isCapital c = false) :
    Atom.ofWord? w = (truthValue? w).map .constant := by
  rcases w with _ | ⟨c, _ | ⟨d, w⟩⟩
  · rfl
  · have hc := h c rfl
    have hw : truthValue? [c] = none :=
      truthValue?_eq_none_iff.mpr fun value => by cases value <;> simp [keyword]
    simp only [ofWord?_singleton, constant?_eq_none hc, isVariable_eq_false hc, hw,
      Bool.false_eq_true, ↓reduceIte, Option.map_none]
  · by_cases hw : ∃ value, c :: d :: w = keyword value
    · obtain ⟨value, hw⟩ := hw
      rw [hw]
      cases value <;> rfl
    · have hn : truthValue? (c :: d :: w) = none :=
        truthValue?_eq_none_iff.mpr fun value h => hw ⟨value, h⟩
      have htrue : ¬(c :: d :: w = ['t', 'r', 'u', 'e'] ∨ c :: d :: w = ['T']) := by
        rintro (h | h)
        · exact hw ⟨true, h⟩
        · cases h
      have hfalse : ¬(c :: d :: w = ['f', 'a', 'l', 's', 'e'] ∨ c :: d :: w = ['F']) := by
        rintro (h | h)
        · exact hw ⟨false, h⟩
        · cases h
      rw [hn, Option.map_none, Atom.ofWord?, if_neg htrue, if_neg hfalse]
      exact nofun

/-- A run of letters is replaced by a keyword exactly if it is an operand. -/
theorem truthValue?_expand (ν : String → Bool) {w : List Char} (hw : ∀ c ∈ w, isAsciiLetter c) :
    truthValue? (expand ν w) = (Atom.ofWord? w).map (Atom.value ν) := by
  by_cases hl : ∀ c ∈ w, isLowerLetter c
  · have ho : Atom.ofWord? w = (truthValue? w).map .constant :=
      ofWord?_eq fun c hc => isCapital_of_isLowerLetter (hl c (by simp [hc]))
    rw [expand_of_isLowerLetter hl, ho, Option.map_map]
    exact Option.map_id'.symm
  · simp only [Classical.not_forall] at hl
    obtain ⟨c, hmem, hlc⟩ := hl
    have hc : isCapital c = true := by simpa [isAsciiLetter, hlc] using hw c hmem
    obtain ⟨a, b, rfl⟩ := List.append_of_mem hmem
    obtain ⟨atom, ha, he⟩ := exists_atom_of_isCapital ν hc
    have hexpand : expand ν (a ++ c :: b) = expand ν a ++ keyword (atom.value ν) ++ expand ν b := by
      simp only [expand, List.flatMap_append, List.flatMap_cons, he, List.append_assoc]
    by_cases hab : a = [] ∧ b = []
    · obtain ⟨rfl, rfl⟩ := hab
      rw [List.nil_append] at hexpand ⊢
      rw [hexpand, ha]
      simp [expand, truthValue?_keyword]
    · -- Letters beside a capital: neither the run nor its replacement is a keyword.
      have hnil {t : List Char} (h : expand ν t = []) : t = [] := by
        cases t with
        | nil => rfl
        | cons d t => simp [expand, expandChar_ne_nil] at h
      have hclosed : truthValue? (expand ν (a ++ c :: b)) = none := by
        refine truthValue?_eq_none_iff.mpr fun value h => hab ?_
        rw [hexpand] at h
        exact ⟨hnil (keyword_isolated h).1, hnil (keyword_isolated h).2⟩
      have hopen : truthValue? (a ++ c :: b) = none := by
        refine truthValue?_eq_none_iff.mpr fun value h => hlc ?_
        exact isLowerLetter_of_mem_keyword (h ▸ hmem)
      rw [hclosed, ofWord?_eq fun d hd => ?_, hopen]
      · rfl
      · cases a with
        | nil => exact absurd ⟨rfl, (List.cons.inj hd).2⟩ hab
        | cons x a => simp at hd

end Expression

end Sentential
