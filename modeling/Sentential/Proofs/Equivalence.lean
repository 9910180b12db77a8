import Mathlib.Tactic.TFAE
import Sentential.Proofs.Compound
import Sentential.Proofs.NormalForm

/-!
# Equivalent expressions

A table answers for all assignments that cover its expression: each of them agrees with a row, and
each row is such an assignment. So the table tells whether the expression is valid or satisfiable,
and its normal forms, which have the value of the expression, are keywords exactly then. Equal forms
have equal values. Conversely the rows depend only on the variables and on the values, so that
equivalent expressions in the same variables have the same forms.
-/
namespace Sentential

namespace Expression

variable {σ : Assignment} {s : List Char} {φ : Formula Atom}

theorem evaluateUnder_of_phrase (hφ : Phrase .expression s φ) (hσ : σ.Covers s) :
    evaluateUnder σ s = .ok (φ.map (Atom.value σ.valuation)).eval :=
  (evaluateUnder_eq_ok_iff hσ.agrees).mpr ⟨φ, hφ, rfl⟩

theorem evaluateUnder_keyword (σ : Assignment) (value : Bool) :
    evaluateUnder σ (keyword value) = .ok value := by
  cases value <;> rfl

end Expression

namespace TruthTable

open Expression (evaluateUnder freeVariables)

variable {e f : String} {limit limit' : Option Int} {t u : TruthTable} {σ : Assignment}

/-! ## Rows and assignments -/

theorem exists_value_of_build (h : build e limit = .ok t) (hσ : σ.Covers e.toList) :
    ∃ value, evaluateUnder σ e.toList = .ok value := by
  obtain ⟨φ, hφ, rfl⟩ := exists_phrase_of_build h
  exact ⟨_, Expression.evaluateUnder_of_phrase hφ hσ⟩

theorem exists_row_iff (h : build e limit = .ok t) (value : Bool) :
    (∃ r ∈ t.rows, r.result = value) ↔
      ∃ σ : Assignment, σ.Covers e.toList ∧ evaluateUnder σ e.toList = .ok value := by
  obtain ⟨φ, hφ, rfl⟩ := exists_phrase_of_build h
  constructor
  · rintro ⟨r, hr, hvalue⟩
    obtain ⟨a, ha, rfl⟩ := List.mem_map.mp hr
    exact ⟨a, covers_of_mem_assignments ha, by rw [evaluateUnder_of_mem_assignments hφ ha, hvalue]⟩
  · rintro ⟨σ, hσ, hvalue⟩
    -- The assignment may bind further names: not it but the row that agrees with it is in the table.
    obtain ⟨r, hr, hagrees⟩ := exists_agrees_rowOf (e := e) (φ := φ) σ.valuation
    obtain ⟨a, ha, rfl⟩ := List.mem_map.mp hr
    refine ⟨_, hr, ?_⟩
    rw [Expression.evaluateUnder_of_phrase hφ hσ] at hvalue
    rw [rowOf_result hφ ha hagrees, Except.ok.inj hvalue]

theorem isSatisfiable_iff (h : build e limit = .ok t) :
    t.isSatisfiable ↔
      ∃ σ : Assignment, σ.Covers e.toList ∧ evaluateUnder σ e.toList = .ok true := by
  rw [isSatisfiable, List.any_eq_true, exists_row_iff h]

theorem isTautology_iff (h : build e limit = .ok t) :
    t.isTautology ↔
      ∀ σ : Assignment, σ.Covers e.toList → evaluateUnder σ e.toList = .ok true := by
  have hfalse := exists_row_iff h false
  constructor
  · intro ht σ hσ
    obtain ⟨value, hv⟩ := exists_value_of_build h hσ
    cases value with
    | true => exact hv
    | false =>
      obtain ⟨r, hr, hresult⟩ := hfalse.mpr ⟨σ, hσ, hv⟩
      have hr := List.all_eq_true.mp ht r hr
      simp [hresult] at hr
  · intro hall
    refine List.all_eq_true.mpr fun r hr => ?_
    by_contra hresult
    obtain ⟨σ, hσ, hv⟩ := hfalse.mp ⟨r, hr, by simpa using hresult⟩
    simp [hall σ hσ] at hv

/-! ## Values of the normal forms -/

theorem namesVariables_of_build (h : build e limit = .ok t) : ∀ r ∈ t.rows, r.NamesVariables := by
  obtain ⟨φ, -, rfl⟩ := exists_phrase_of_build h
  exact List.forall_mem_map.mpr fun a ha => namesVariables_rowOf ha

theorem lookup_of_build (h : build e limit = .ok t) (hσ : σ.Covers e.toList) :
    ∀ r ∈ t.rows, ∀ b ∈ r.bindings, σ.lookup b.1 = some (σ.valuation b.1) := by
  obtain ⟨φ, -, rfl⟩ := exists_phrase_of_build h
  refine List.forall_mem_map.mpr fun a ha b hb => ?_
  obtain ⟨v, hv, hname⟩ := exists_variable_of_mem ha hb
  rw [← hname]
  exact hσ.agrees v hv

theorem determines_of_build (h : build e limit = .ok t) (hσ : σ.Covers e.toList) {value : Bool}
    (hv : evaluateUnder σ e.toList = .ok value) : t.Determines σ.valuation value := by
  obtain ⟨φ, hφ, rfl⟩ := exists_phrase_of_build h
  rw [Expression.evaluateUnder_of_phrase hφ hσ] at hv
  obtain rfl := Except.ok.inj hv
  exact ⟨exists_agrees_rowOf σ.valuation, List.forall_mem_map.mpr fun a ha => rowOf_result hφ ha⟩

theorem evaluateUnder_disjunctiveForm (h : build e limit = .ok t) (hσ : σ.Covers e.toList) :
    evaluateUnder σ t.disjunctiveForm.toList = evaluateUnder σ e.toList := by
  obtain ⟨value, hv⟩ := exists_value_of_build h hσ
  rw [hv, disjunctiveForm, String.toList_ofList]
  exact (determines_of_build h hσ hv).evaluateUnder_disjunctive (namesVariables_of_build h)
    (lookup_of_build h hσ)

theorem evaluateUnder_conjunctiveForm (h : build e limit = .ok t) (hσ : σ.Covers e.toList) :
    evaluateUnder σ t.conjunctiveForm.toList = evaluateUnder σ e.toList := by
  obtain ⟨value, hv⟩ := exists_value_of_build h hσ
  rw [hv, conjunctiveForm, String.toList_ofList]
  exact (determines_of_build h hσ hv).evaluateUnder_conjunctive (namesVariables_of_build h)
    (lookup_of_build h hσ)

theorem disjunctiveForm_eq_false_iff (h : build e limit = .ok t) :
    t.disjunctiveForm = "false" ↔ ¬t.isSatisfiable := by
  constructor
  · intro hform hsat
    obtain ⟨σ, hσ, hv⟩ := (isSatisfiable_iff h).mp hsat
    rw [← evaluateUnder_disjunctiveForm h hσ, hform] at hv
    exact absurd ((Expression.evaluateUnder_keyword σ false).symm.trans hv) (by simp)
  · intro hsat
    have hrows : t.satisfying = [] := by
      simpa [isSatisfiable, satisfying] using hsat
    simp only [disjunctiveForm, NormalForm.disjunctive, hrows]
    rfl

theorem conjunctiveForm_eq_true_iff (h : build e limit = .ok t) :
    t.conjunctiveForm = "true" ↔ t.isTautology := by
  constructor
  · intro hform
    refine (isTautology_iff h).mpr fun σ hσ => ?_
    rw [← evaluateUnder_conjunctiveForm h hσ, hform]
    exact Expression.evaluateUnder_keyword σ true
  · intro ht
    have hrows : t.falsifying = [] := by
      simpa [isTautology, falsifying] using ht
    simp only [conjunctiveForm, NormalForm.conjunctive, hrows]
    rfl

/-! ## Two expressions -/

theorem covers_biconditional_iff :
    σ.Covers ("(" ++ e ++ ") ↔ (" ++ f ++ ")").toList ↔ σ.Covers e.toList ∧ σ.Covers f.toList := by
  simp only [Assignment.Covers, Expression.mem_freeVariables_biconditional, or_imp, forall_and]

theorem exists_build_biconditional (ht : build e limit = .ok t) (hu : build f limit' = .ok u) :
    ∃ v, build ("(" ++ e ++ ") ↔ (" ++ f ++ ")") none = .ok v ∧
      (v.isTautology ↔ ∀ σ : Assignment, σ.Covers e.toList → σ.Covers f.toList →
        evaluateUnder σ e.toList = evaluateUnder σ f.toList) := by
  obtain ⟨φ, hφ, -⟩ := exists_phrase_of_build ht
  obtain ⟨ψ, hψ, -⟩ := exists_phrase_of_build hu
  have hphrase := Expression.phrase_biconditional hφ hψ
  refine ⟨_, build_of_phrase hphrase, ?_⟩
  rw [isTautology_iff (build_of_phrase hphrase)]
  simp only [covers_biconditional_iff, and_imp]
  refine forall_congr' fun σ => forall_congr' fun he => forall_congr' fun hf => ?_
  rw [Expression.evaluateUnder_of_phrase hφ he, Expression.evaluateUnder_of_phrase hψ hf,
    Expression.evaluateUnder_of_phrase hphrase (covers_biconditional_iff.mpr ⟨he, hf⟩)]
  simp [Formula.map, Formula.eval]

theorem forms_eq_of_rows_eq (h : t.rows = u.rows) :
    t.disjunctiveForm = u.disjunctiveForm ∧ t.conjunctiveForm = u.conjunctiveForm := by
  simp only [disjunctiveForm, conjunctiveForm, NormalForm.disjunctive, NormalForm.conjunctive,
    satisfying, falsifying, h, and_self]

theorem rows_eq_of_evaluateUnder_eq (ht : build e limit = .ok t) (hu : build f limit' = .ok u)
    (hvars : freeVariables e.toList = freeVariables f.toList)
    (h : ∀ σ : Assignment, σ.Covers e.toList →
      evaluateUnder σ e.toList = evaluateUnder σ f.toList) : t.rows = u.rows := by
  obtain ⟨φ, hφ, rfl⟩ := exists_phrase_of_build ht
  obtain ⟨ψ, hψ, rfl⟩ := exists_phrase_of_build hu
  have hnames : variablesOf e = variablesOf f := by rw [variablesOf, variablesOf, hvars]
  simp only [← hnames]
  refine List.map_congr_left fun a ha => ?_
  have hvalue := h a (covers_of_mem_assignments ha)
  rw [evaluateUnder_of_mem_assignments hφ ha, evaluateUnder_of_mem_assignments hψ (hnames ▸ ha)]
    at hvalue
  rw [Row.mk.injEq]
  exact ⟨rfl, Except.ok.inj hvalue⟩

/-! ## What tables and normal forms decide -/

/-- A table decides whether its expression is valid and whether it is satisfiable, and its normal
forms show both. The table of the biconditional of two expressions decides whether they are
equivalent. -/
theorem decides_of_build (e : String) (limit : Option Int) (t : TruthTable)
    (h : build e limit = .ok t) :
    (t.isTautology ↔
        ∀ σ : Assignment, σ.Covers e.toList → evaluateUnder σ e.toList = .ok true) ∧
      (t.isTautology ↔ t.conjunctiveForm = "true") ∧
      (t.isSatisfiable ↔
        ∃ σ : Assignment, σ.Covers e.toList ∧ evaluateUnder σ e.toList = .ok true) ∧
      (t.isSatisfiable ↔ t.disjunctiveForm ≠ "false") ∧
      ∀ (f : String) (limit' : Option Int) (u : TruthTable), build f limit' = .ok u →
        ∃ v, build ("(" ++ e ++ ") ↔ (" ++ f ++ ")") none = .ok v ∧
          (v.isTautology ↔ ∀ σ : Assignment, σ.Covers e.toList → σ.Covers f.toList →
            evaluateUnder σ e.toList = evaluateUnder σ f.toList) := by
  refine ⟨isTautology_iff h, (conjunctiveForm_eq_true_iff h).symm, isSatisfiable_iff h, ?_,
    fun f limit' u hu => exists_build_biconditional h hu⟩
  rw [ne_eq, disjunctiveForm_eq_false_iff h, not_not]

theorem decides_of_build_unsharedVariables :
    build "A ∨ ¬A" none =
        .ok ⟨"A ∨ ¬A", ["A"], [⟨[("A", false)], true⟩, ⟨[("A", true)], true⟩]⟩ ∧
      build "B → B" none =
        .ok ⟨"B → B", ["B"], [⟨[("B", false)], true⟩, ⟨[("B", true)], true⟩]⟩ ∧
      ∀ σ : Assignment, σ.Covers "A ∨ ¬A".toList → σ.Covers "B → B".toList →
        evaluateUnder σ "A ∨ ¬A".toList = evaluateUnder σ "B → B".toList := by
  have ht : build "A ∨ ¬A" none =
      .ok ⟨"A ∨ ¬A", ["A"], [⟨[("A", false)], true⟩, ⟨[("A", true)], true⟩]⟩ := by rfl
  have hu : build "B → B" none =
      .ok ⟨"B → B", ["B"], [⟨[("B", false)], true⟩, ⟨[("B", true)], true⟩]⟩ := by rfl
  have hrow : build "(A ∨ ¬A) ↔ (B → B)" none = .ok ⟨"(A ∨ ¬A) ↔ (B → B)", ["A", "B"],
      [⟨[("A", false), ("B", false)], true⟩, ⟨[("A", false), ("B", true)], true⟩,
        ⟨[("A", true), ("B", false)], true⟩, ⟨[("A", true), ("B", true)], true⟩]⟩ := by rfl
  obtain ⟨-, -, -, -, hpair⟩ := decides_of_build _ _ _ ht
  obtain ⟨v, hv, hiff⟩ := hpair _ _ _ hu
  obtain rfl := Except.ok.inj (hrow.symm.trans hv)
  exact ⟨ht, hu, hiff.mp rfl⟩

/-- In the same variables, expressions with equal normal forms of the one kind have equal normal
forms of the other kind, and equal values. -/
theorem normalForms_eq_tfae (e f : String) (limit limit' : Option Int) (t u : TruthTable)
    (hvars : ∀ v, v ∈ freeVariables e.toList ↔ v ∈ freeVariables f.toList)
    (ht : build e limit = .ok t) (hu : build f limit' = .ok u) :
    [t.disjunctiveForm = u.disjunctiveForm, t.conjunctiveForm = u.conjunctiveForm,
      ∀ σ : Assignment, σ.Covers e.toList →
        evaluateUnder σ e.toList = evaluateUnder σ f.toList].TFAE := by
  have hcovers {σ : Assignment} (hσ : σ.Covers e.toList) : σ.Covers f.toList :=
    fun v hv => hσ v ((hvars v).mpr hv)
  -- Equal texts have equal values, so that nothing has to be known about how clauses are printed.
  tfae_have 1 → 3 := by
    intro hform σ hσ
    rw [← evaluateUnder_disjunctiveForm ht hσ, hform,
      evaluateUnder_disjunctiveForm hu (hcovers hσ)]
  tfae_have 2 → 3 := by
    intro hform σ hσ
    rw [← evaluateUnder_conjunctiveForm ht hσ, hform,
      evaluateUnder_conjunctiveForm hu (hcovers hσ)]
  have hrows := rows_eq_of_evaluateUnder_eq ht hu (Expression.freeVariables_ext hvars)
  tfae_have 3 → 1 := fun h => (forms_eq_of_rows_eq (hrows h)).1
  tfae_have 3 → 2 := fun h => (forms_eq_of_rows_eq (hrows h)).2
  tfae_finish

theorem normalForms_eq_tfae_conditional :
    build "A → B" none = .ok ⟨"A → B", ["A", "B"],
        [⟨[("A", false), ("B", false)], true⟩, ⟨[("A", false), ("B", true)], true⟩,
          ⟨[("A", true), ("B", false)], false⟩, ⟨[("A", true), ("B", true)], true⟩]⟩ ∧
      build "B ∨ ¬A" (some 2) = .ok ⟨"B ∨ ¬A", ["A", "B"],
        [⟨[("A", false), ("B", false)], true⟩, ⟨[("A", false), ("B", true)], true⟩,
          ⟨[("A", true), ("B", false)], false⟩, ⟨[("A", true), ("B", true)], true⟩]⟩ ∧
      (∀ v, v ∈ freeVariables "A → B".toList ↔ v ∈ freeVariables "B ∨ ¬A".toList) ∧
      ∀ σ : Assignment, σ.Covers "A → B".toList →
        evaluateUnder σ "A → B".toList = evaluateUnder σ "B ∨ ¬A".toList := by
  have ht : build "A → B" none = .ok ⟨"A → B", ["A", "B"],
      [⟨[("A", false), ("B", false)], true⟩, ⟨[("A", false), ("B", true)], true⟩,
        ⟨[("A", true), ("B", false)], false⟩, ⟨[("A", true), ("B", true)], true⟩]⟩ := by rfl
  have hu : build "B ∨ ¬A" (some 2) = .ok ⟨"B ∨ ¬A", ["A", "B"],
      [⟨[("A", false), ("B", false)], true⟩, ⟨[("A", false), ("B", true)], true⟩,
        ⟨[("A", true), ("B", false)], false⟩, ⟨[("A", true), ("B", true)], true⟩]⟩ := by rfl
  have hsame : freeVariables "A → B".toList = freeVariables "B ∨ ¬A".toList := by rfl
  have hvars : ∀ v, v ∈ freeVariables "A → B".toList ↔ v ∈ freeVariables "B ∨ ¬A".toList :=
    fun v => by rw [hsame]
  exact ⟨ht, hu, hvars, ((normalForms_eq_tfae _ _ _ _ _ _ hvars ht hu).out 0 2).mp rfl⟩

end TruthTable

end Sentential
