import Sentential.Proofs.Substitution

/-!
# Compound expressions

Phrases make up longer phrases as the grammar has it, with spaces around binary glyphs. So bracketed
expressions under a connective are an expression, whose formula is the connective over theirs and
whose variables are the variables of either.
-/
namespace Sentential.Expression

namespace Phrase

variable {s t : List Char} {φ ψ : Formula Atom}

theorem single {tier : Tier} (h : Phrase tier.part s φ) : Phrase tier.chain s φ := by
  obtain ⟨w, hs, hd⟩ := h
  exact ⟨w, hs, hd.single⟩

theorem ofFactor (h : Phrase .factor s φ) : Phrase .term s φ := by
  obtain ⟨w, hs, hd⟩ := h
  exact ⟨w, hs, .ofFactor hd⟩

theorem ofTerm (h : Phrase .term s φ) : Phrase .expression s φ := by
  obtain ⟨w, hs, hd⟩ := h
  exact ⟨w, hs, .ofTerm hd⟩

theorem keyword (value : Bool) :
    Phrase .factor (keyword value) (.operand (.constant value)) := by
  refine ⟨_, .word (keyword_ne_nil value) (fun c hc => ?_) ?_, .operand _⟩
  · simp [Vocabulary.atoms, isAsciiLetter, isLowerLetter_of_mem_keyword hc]
  · cases value <;> rfl

theorem named {v : Char} (h : isVariable v) : Phrase .factor [v] (.operand (.named v)) := by
  refine ⟨_, .word (List.cons_ne_nil v []) ?_ (ofWord?_named h), .operand _⟩
  intro c hmem
  rw [List.mem_singleton.mp hmem]
  simp [Vocabulary.atoms, isAsciiLetter, (isVariable_iff.mp h).1]

theorem negation (h : Phrase .factor s φ) :
    Phrase .factor (Operator.negation.symbol :: s) φ.negation := by
  obtain ⟨w, hs, hd⟩ := h
  exact ⟨_, .operator Vocabulary.plain_atoms .negation hs, .negation hd⟩

theorem group (h : Phrase .expression s φ) : Phrase .factor ('(' :: s ++ [')']) φ := by
  obtain ⟨w, hs, hd⟩ := h
  have plain := Vocabulary.plain_atoms
  have right := hs.append_cons (plain.bracket .right) (.bracket plain .right (.nil _))
  exact ⟨_, .bracket plain .left right, .group hd⟩

theorem extend (op : BinaryOp) (hs : Phrase op.tier.chain s φ)
    (ht : Phrase op.tier.part t ψ) :
    Phrase op.tier.chain (s ++ ' ' :: (Operator.binary op).symbol :: ' ' :: t)
      (.binary op φ ψ) := by
  obtain ⟨u, hu, hdu⟩ := hs
  obtain ⟨w, hw, hdw⟩ := ht
  have plain := Vocabulary.plain_atoms
  have right := Token.Spells.operator plain (.binary op) (.space plain hw)
  exact ⟨_, hu.append_cons plain.space (.space plain right), hdu.extend hdw⟩

end Phrase

section Bracketed

variable {e f : String} {φ ψ : Formula Atom}

theorem phrase_negation (h : Phrase .expression e.toList φ) :
    Phrase .expression ("¬(" ++ e ++ ")").toList φ.negation := by
  simpa [String.toList_append, Operator.symbol] using h.group.negation.ofFactor.ofTerm

theorem phrase_biconditional (he : Phrase .expression e.toList φ)
    (hf : Phrase .expression f.toList ψ) :
    Phrase .expression ("(" ++ e ++ ") ↔ (" ++ f ++ ")").toList
      (.binary .biconditional φ ψ) := by
  have h : Phrase .expression _ _ :=
    Phrase.extend .biconditional he.group.ofFactor.ofTerm hf.group.ofFactor
  simpa [String.toList_append, Operator.symbol] using h

end Bracketed

variable {s t : List Char} {v : Char}

theorem freeVariables_ext (h : ∀ v, v ∈ freeVariables s ↔ v ∈ freeVariables t) :
    freeVariables s = freeVariables t := by
  refine List.filter_congr fun v hv => ?_
  have hvar := mem_alphabet.mp hv
  have hmem := h v
  rw [mem_freeVariables, mem_freeVariables] at hmem
  simpa [hvar] using hmem

theorem mem_freeVariables_append :
    v ∈ freeVariables (s ++ t) ↔ v ∈ freeVariables s ∨ v ∈ freeVariables t := by
  simp only [mem_freeVariables, List.mem_append, or_and_right]

theorem freeVariables_negation (e : String) :
    freeVariables ("¬(" ++ e ++ ")").toList = freeVariables e.toList := by
  have hl : freeVariables "¬(".toList = [] := by rfl
  have hr : freeVariables ")".toList = [] := by rfl
  refine freeVariables_ext fun v => ?_
  simp only [String.toList_append, mem_freeVariables_append, hl, hr, List.not_mem_nil, false_or,
    or_false]

theorem mem_freeVariables_biconditional (e f : String) :
    v ∈ freeVariables ("(" ++ e ++ ") ↔ (" ++ f ++ ")").toList ↔
      v ∈ freeVariables e.toList ∨ v ∈ freeVariables f.toList := by
  have hl : freeVariables "(".toList = [] := by rfl
  have hm : freeVariables ") ↔ (".toList = [] := by rfl
  have hr : freeVariables ")".toList = [] := by rfl
  simp only [String.toList_append, mem_freeVariables_append, hl, hm, hr, List.not_mem_nil,
    false_or, or_false]

end Sentential.Expression
