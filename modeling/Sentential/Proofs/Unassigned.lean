import Sentential.Proofs.Substitution

/-!
# Variables without a value

Replacing variables goes through a text from the left and stops at the first variable that has no
value, before anything is read. So it fails exactly if the assignment leaves a free variable out,
however the text is formed. Otherwise the text that results has no capital letters, and no further
replacement finds anything in it. Only the values of the free variables are ever asked for.
-/
namespace Sentential

/-- The variable has no value, and all variables in front of some occurrence have one. -/
structure Assignment.FirstMissing (σ : Assignment) (s : List Char) (v : Char) : Prop where
  isVariable : Expression.isVariable v
  lookup : σ.lookup v.toString = none
  leftmost : ∃ before after, s = before ++ v :: after ∧ σ.Covers before

namespace Expression

variable {σ τ : Assignment} {s : List Char} {c v : Char}

/-! ## The first variable that is left out -/

theorem covers_nil (σ : Assignment) : σ.Covers [] := by
  intro v hv
  exact absurd (mem_freeVariables.mp hv).1 List.not_mem_nil

theorem covers_cons_iff :
    σ.Covers (c :: s) ↔ (isVariable c → (σ.lookup c.toString).isSome) ∧ σ.Covers s := by
  simp only [Assignment.Covers, mem_freeVariables, List.mem_cons]
  constructor
  · intro h
    exact ⟨fun hc => h c ⟨.inl rfl, hc⟩, fun v hv => h v ⟨.inr hv.1, hv.2⟩⟩
  · rintro ⟨hc, hs⟩ v ⟨rfl | hv, hvar⟩
    · exact hc hvar
    · exact hs v ⟨hv, hvar⟩

theorem not_covers_iff :
    ¬σ.Covers s ↔ ∃ v ∈ freeVariables s, σ.lookup v.toString = none := by
  simp only [Assignment.Covers, Classical.not_forall, Bool.not_eq_true, Option.isSome_eq_false_iff,
    Option.isNone_iff_eq_none, exists_prop]

theorem exists_firstMissing (h : ¬σ.Covers s) : ∃ v, σ.FirstMissing s v := by
  induction s with
  | nil => exact absurd (covers_nil σ) h
  | cons c s ih =>
    by_cases hc : isVariable c → (σ.lookup c.toString).isSome
    · obtain ⟨v, hvar, hnone, before, after, rfl, hbefore⟩ :=
        ih fun hs => h (covers_cons_iff.mpr ⟨hc, hs⟩)
      exact ⟨v, hvar, hnone, c :: before, after, rfl, covers_cons_iff.mpr ⟨hc, hbefore⟩⟩
    · obtain ⟨hvar, hnone⟩ := Classical.not_imp.mp hc
      exact ⟨c, hvar, Option.not_isSome_iff_eq_none.mp hnone, [], s, rfl, covers_nil σ⟩

theorem substituteChar_of_missing (hv : isVariable v) (hl : σ.lookup v.toString = none) :
    substituteChar σ v = .error (.unassigned v) := by
  simp only [substituteChar, (isVariable_iff.mp hv).2, hv, hl, ↓reduceIte]

theorem substitute_of_firstMissing (h : σ.FirstMissing s v) :
    substitute σ s = .error (.unassigned v) := by
  obtain ⟨hvar, hnone, before, after, rfl, hbefore⟩ := h
  induction before with
  | nil => rw [List.nil_append, substitute, substituteChar_of_missing hvar hnone]
  | cons c before ih =>
    obtain ⟨hc, hbefore⟩ := covers_cons_iff.mp hbefore
    rw [List.cons_append, substitute,
      substituteChar_eq fun hv => Assignment.lookup_eq_valuation (hc hv)]
    simp only [ih hbefore]

/-- Replacing fails for nothing but a variable without a value, and names the first one. -/
theorem substitute_eq_error_iff {e : EvaluationError} :
    substitute σ s = .error e ↔ ∃ v, e = .unassigned v ∧ σ.FirstMissing s v := by
  constructor
  · intro h
    have hmissing : ¬σ.Covers s := by
      intro hcovers
      rw [substitute_eq hcovers.agrees] at h
      cases h
    obtain ⟨v, hv⟩ := exists_firstMissing hmissing
    rw [substitute_of_firstMissing hv] at h
    exact ⟨v, (Except.error.inj h).symm, hv⟩
  · rintro ⟨v, rfl, hv⟩
    exact substitute_of_firstMissing hv

theorem exists_firstMissing_iff :
    (∃ v, σ.FirstMissing s v) ↔ ∃ v ∈ freeVariables s, σ.lookup v.toString = none := by
  rw [← not_covers_iff]
  constructor
  · rintro ⟨v, hv⟩ hcovers
    have herror := substitute_of_firstMissing hv
    rw [substitute_eq hcovers.agrees] at herror
    cases herror
  · exact exists_firstMissing

/-- An error of the text never hides a variable without a value, nor the other way round. -/
theorem evaluateUnder_eq_unassigned_iff :
    evaluateUnder σ s = .error (.unassigned v) ↔ σ.FirstMissing s v := by
  rw [evaluateUnder]
  cases hs : substitute σ s with
  | error e =>
    obtain ⟨u, rfl, hu⟩ := substitute_eq_error_iff.mp hs
    constructor
    · intro h
      rwa [← EvaluationError.unassigned.inj (Except.error.inj h)]
    · intro hv
      rw [← hs, substitute_of_firstMissing hv]
  | ok closed =>
    constructor
    · intro h
      dsimp only at h
      cases he : evaluate closed <;> rw [he] at h <;> cases h
    · intro hv
      rw [substitute_of_firstMissing hv] at hs
      cases hs

/-! ## The text that results -/

theorem not_isCapital_of_mem_expand {ν : String → Bool} (h : c ∈ expand ν s) :
    isCapital c = false := by
  obtain ⟨d, -, hc⟩ := List.mem_flatMap.mp h
  cases hd : isCapital d with
  | true =>
    obtain ⟨a, -, ha⟩ := exists_atom_of_isCapital ν hd
    rw [ha] at hc
    exact isCapital_of_isLowerLetter (isLowerLetter_of_mem_keyword hc)
  | false =>
    rw [expandChar_of_not_isCapital hd] at hc
    rwa [List.mem_singleton.mp hc]

theorem substitute_of_not_isCapital (h : ∀ c ∈ s, isCapital c = false) (τ : Assignment) :
    substitute τ s = .ok s := by
  have hagrees : τ.Agrees τ.valuation s := by
    intro v hv
    obtain ⟨hmem, hvar⟩ := mem_freeVariables.mp hv
    rw [isVariable_eq_false (h v hmem)] at hvar
    cases hvar
  rw [substitute_eq hagrees, expand_of_not_isCapital h]

/-! ## Assignments that agree -/

theorem substituteChar_congr
    (h : isVariable c → τ.lookup c.toString = σ.lookup c.toString) :
    substituteChar τ c = substituteChar σ c := by
  unfold substituteChar
  cases constant? c with
  | some value => rfl
  | none =>
    by_cases hc : isVariable c
    · simp only [h hc]
    · simp only [hc, Bool.false_eq_true, ↓reduceIte]

theorem substitute_congr
    (h : ∀ v ∈ freeVariables s, τ.lookup v.toString = σ.lookup v.toString) :
    substitute τ s = substitute σ s := by
  have hs : ∀ v ∈ s, isVariable v → τ.lookup v.toString = σ.lookup v.toString :=
    fun v hv hvar => h v (mem_freeVariables.mpr ⟨hv, hvar⟩)
  clear h
  induction s with
  | nil => rfl
  | cons c s ih =>
    obtain ⟨hc, hs⟩ := List.forall_mem_cons.mp hs
    rw [substitute, substitute, substituteChar_congr hc, ih hs]

/-- Replacing and evaluating name the leftmost free variable that has no value, if there is one, and
fail so in no other case. If there is none, the text that results has no capital letters, further
assignments leave it as it is, and it is what is evaluated. Two assignments that agree on the free
variables give the same text and the same outcome. -/
theorem substitute_unassigned (σ : Assignment) (s : List Char) :
    (∀ e, substitute σ s = .error e ↔ ∃ v, e = .unassigned v ∧ σ.FirstMissing s v) ∧
    (∀ v, evaluateUnder σ s = .error (.unassigned v) ↔ σ.FirstMissing s v) ∧
    ((∃ v, σ.FirstMissing s v) ↔ ∃ v ∈ freeVariables s, σ.lookup v.toString = none) ∧
    ((∀ v ∈ freeVariables s, σ.lookup v.toString ≠ none) →
      ∃ closed, substitute σ s = .ok closed ∧ (∀ c ∈ closed, isCapital c = false) ∧
        (∀ τ, substitute τ closed = .ok closed) ∧
          evaluateUnder σ s = (evaluate closed).mapError .malformed) ∧
    ∀ τ : Assignment,
      (∀ v ∈ freeVariables s, τ.lookup v.toString = σ.lookup v.toString) →
        substitute τ s = substitute σ s ∧ evaluateUnder τ s = evaluateUnder σ s := by
  refine ⟨fun e => substitute_eq_error_iff, fun v => evaluateUnder_eq_unassigned_iff,
    exists_firstMissing_iff, fun h => ?_, fun τ h => ?_⟩
  · have hcovers : σ.Covers s := fun v hv => Option.isSome_iff_ne_none.mpr (h v hv)
    have hcapital : ∀ c ∈ expand σ.valuation s, isCapital c = false :=
      fun c => not_isCapital_of_mem_expand
    exact ⟨_, substitute_eq hcovers.agrees, hcapital, substitute_of_not_isCapital hcapital,
      evaluateUnder_eq hcovers.agrees⟩
  · have htext := substitute_congr h
    exact ⟨htext, by rw [evaluateUnder, evaluateUnder, htext]⟩

theorem substitute_unassigned_strayBracket :
    evaluateUnder [("B", true), ("T", false), ("CB", true)] "x(C∧B".toList =
        .error (.unassigned 'C') ∧
      (∀ v ∈ freeVariables "A∨T)".toList,
        List.lookup v.toString [("T", false), ("A", true), ("AB", true)] =
          List.lookup v.toString [("A", true)]) ∧
      evaluateUnder [("T", false), ("A", true), ("AB", true)] "A∨T)".toList =
        evaluateUnder [("A", true)] "A∨T)".toList := by
  have hmissing : Assignment.FirstMissing [("B", true), ("T", false), ("CB", true)]
      "x(C∧B".toList 'C' :=
    ⟨by decide, by decide, ['x', '('], ['∧', 'B'], rfl, by decide⟩
  have hagree : ∀ v ∈ freeVariables "A∨T)".toList,
      List.lookup v.toString [("T", false), ("A", true), ("AB", true)] =
        List.lookup v.toString [("A", true)] := by
    have hfree : freeVariables "A∨T)".toList = ['A'] := by decide
    rw [hfree]
    exact List.forall_mem_singleton.mpr rfl
  obtain ⟨-, hevaluate, -⟩ :=
    substitute_unassigned [("B", true), ("T", false), ("CB", true)] "x(C∧B".toList
  obtain ⟨-, -, -, -, hsame⟩ := substitute_unassigned [("A", true)] "A∨T)".toList
  exact ⟨(hevaluate 'C').mpr hmissing, hagree, (hsame _ hagree).2⟩

end Expression

end Sentential
