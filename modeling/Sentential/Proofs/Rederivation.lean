import Sentential.Proofs.Equivalence

/-!
# Normal forms of normal forms

A normal form is an expression itself. Its variables are those of the table it came from, or none if
it has collapsed to a keyword, and it has the values of the expression that the table is of. So it
has a table, and where no variable is lost this is the table it came from. In either case the table
gives back the same normal form.
-/
namespace Sentential

namespace NormalForm

open Expression (isVariable freeVariables)

variable {op inner : BinaryOp} {empty neutral : Bool} {v : Char}

/-! ## Variables of a form -/

theorem mem_joinWith {part : List Char} {parts : List (List Char)} (hpart : part ∈ parts)
    (hv : v ∈ part) : v ∈ joinWith op parts := by
  induction parts with
  | nil => cases hpart
  | cons s parts ih =>
    cases parts with
    | nil =>
      rw [joinWith_singleton]
      rwa [← List.mem_singleton.mp hpart]
    | cons t parts =>
      rw [joinWith_cons_cons]
      rcases List.mem_cons.mp hpart with rfl | hmore
      · exact List.mem_append_left _ hv
      · have hrest : v ∈ joinWith op (t :: parts) := ih hmore
        simp [hrest]

theorem mem_joinClauses {part : List Char} {parts : List (List Char)} (hpart : part ∈ parts)
    (hv : v ∈ part) : v ∈ joinClauses op empty parts := by
  have hne : parts.isEmpty = false := by
    simpa using List.ne_nil_of_mem hpart
  rw [joinClauses, if_neg (by simp [hne])]
  exact mem_joinWith hpart hv

theorem mem_clause {part : List Char} {parts : List (List Char)} (hpart : part ∈ parts)
    (hv : v ∈ part) : v ∈ clause op empty parts := by
  have hne : parts.isEmpty = false := by
    simpa using List.ne_nil_of_mem hpart
  rw [clause, if_neg (by simp [hne])]
  simp [mem_joinWith hpart hv]

theorem mem_literal {name : String} (negated : Bool) (hv : v ∈ name.toList) :
    v ∈ literal name negated := by
  cases negated with
  | false => exact hv
  | true => exact List.mem_cons_of_mem _ hv

/-- A form names the variables that its rows bind. -/
theorem mem_joinClauses_iff {rows : List Row} {negated : String × Bool → Bool}
    (hrows : ∀ r ∈ rows, r.NamesVariables) (hv : isVariable v) :
    v ∈ joinClauses op empty (rows.map fun r =>
        clause inner neutral (r.bindings.map fun b => literal b.1 (negated b))) ↔
      ∃ r ∈ rows, v.toString ∈ r.bindings.map Prod.fst := by
  constructor
  · intro h
    obtain ⟨r, hr, b, hb, hname⟩ := exists_binding_of_joinClauses hv hrows h
    exact ⟨r, hr, hname ▸ List.mem_map_of_mem hb⟩
  · rintro ⟨r, hr, hbound⟩
    obtain ⟨b, hb, hname⟩ := List.mem_map.mp hbound
    have hletter : v ∈ b.1.toList := by rw [hname, Char.toList_toString, List.mem_singleton]
    have hclause : v ∈ clause inner neutral (r.bindings.map fun b => literal b.1 (negated b)) :=
      mem_clause (List.mem_map_of_mem hb) (mem_literal (negated b) hletter)
    exact mem_joinClauses (List.mem_map_of_mem hr) hclause

/-- If all rows bind the variables of an expression, the form has these variables, or none if there
are no rows. -/
theorem freeVariables_joinClauses {e : String} {rows : List Row} {negated : String × Bool → Bool}
    (hrows : ∀ r ∈ rows, r.NamesVariables)
    (hnames : ∀ r ∈ rows, r.bindings.map Prod.fst = TruthTable.variablesOf e) :
    freeVariables (joinClauses op empty (rows.map fun r =>
        clause inner neutral (r.bindings.map fun b => literal b.1 (negated b)))) =
      if rows = [] then [] else freeVariables e.toList := by
  split
  · next hrows =>
    subst hrows
    have hkeyword : ∀ v ∈ freeVariables (keyword empty), False := fun v hv =>
      not_mem_keyword (Expression.mem_freeVariables.mp hv).2 empty
        (Expression.mem_freeVariables.mp hv).1
    exact List.eq_nil_iff_forall_not_mem.mpr hkeyword
  · next hne =>
    obtain ⟨r, hr⟩ := List.exists_mem_of_ne_nil rows hne
    refine Expression.freeVariables_ext fun v => ?_
    rw [Expression.mem_freeVariables]
    constructor
    · rintro ⟨hmem, hv⟩
      obtain ⟨s, hs, hbound⟩ := (mem_joinClauses_iff hrows hv).mp hmem
      rw [hnames s hs] at hbound
      obtain ⟨u, hu, hname⟩ := List.mem_map.mp hbound
      exact Char.toString_injective hname ▸ hu
    · intro hmem
      have hv := (Expression.mem_freeVariables.mp hmem).2
      refine ⟨(mem_joinClauses_iff hrows hv).mpr ⟨r, hr, ?_⟩, hv⟩
      rw [hnames r hr]
      exact List.mem_map_of_mem hmem

end NormalForm

namespace TruthTable

open Expression (evaluateUnder freeVariables)

variable {e f : String} {limit : Option Int} {t u : TruthTable}

theorem names_of_build (h : build e limit = .ok t) : t.names = variablesOf e := by
  obtain ⟨φ, -, rfl⟩ := exists_phrase_of_build h
  rfl

theorem map_fst_bindings_of_build (h : build e limit = .ok t) :
    ∀ r ∈ t.rows, r.bindings.map Prod.fst = variablesOf e := by
  obtain ⟨φ, -, rfl⟩ := exists_phrase_of_build h
  exact List.forall_mem_map.mpr fun a ha => mem_assignments.mp ha

theorem satisfying_eq_nil_iff : t.satisfying = [] ↔ ¬t.isSatisfiable := by
  simp [satisfying, isSatisfiable]

theorem falsifying_eq_nil_iff : t.falsifying = [] ↔ t.isTautology := by
  simp [falsifying, isTautology]

theorem freeVariables_disjunctiveForm (h : build e limit = .ok t) :
    freeVariables t.disjunctiveForm.toList =
      if t.isSatisfiable then freeVariables e.toList else [] := by
  have hsub : ∀ r ∈ t.satisfying, r ∈ t.rows := fun r hr => (List.mem_filter.mp hr).1
  rw [disjunctiveForm, String.toList_ofList]
  refine (NormalForm.freeVariables_joinClauses
    (fun r hr => namesVariables_of_build h r (hsub r hr))
    (fun r hr => map_fst_bindings_of_build h r (hsub r hr))).trans ?_
  by_cases hsat : t.isSatisfiable <;> simp [satisfying_eq_nil_iff, hsat]

theorem freeVariables_conjunctiveForm (h : build e limit = .ok t) :
    freeVariables t.conjunctiveForm.toList =
      if t.isTautology then [] else freeVariables e.toList := by
  have hsub : ∀ r ∈ t.falsifying, r ∈ t.rows := fun r hr => (List.mem_filter.mp hr).1
  rw [conjunctiveForm, String.toList_ofList]
  refine (NormalForm.freeVariables_joinClauses
    (fun r hr => namesVariables_of_build h r (hsub r hr))
    (fun r hr => map_fst_bindings_of_build h r (hsub r hr))).trans ?_
  by_cases htaut : t.isTautology <;> simp [falsifying_eq_nil_iff, htaut]

/-! ## Expressions with the values of another -/

theorem exceeds_eq_none_of_le {m n : Nat} (h : exceeds n limit = none) (hle : m ≤ n) :
    exceeds m limit = none := by
  cases limit with
  | none => rfl
  | some bound =>
    simp only [exceeds, ite_eq_right_iff, reduceCtorEq, imp_false] at h ⊢
    omega

theorem length_variablesOf_le (h : ∀ v ∈ freeVariables f.toList, v ∈ freeVariables e.toList) :
    (variablesOf f).length ≤ (variablesOf e).length := by
  have hmem : ∀ v ∈ Expression.alphabet, v ∈ f.toList → v ∈ e.toList := by
    intro v hv hf
    have hfree : v ∈ freeVariables f.toList :=
      Expression.mem_freeVariables.mpr ⟨hf, Expression.mem_alphabet.mp hv⟩
    exact (Expression.mem_freeVariables.mp (h v hfree)).1
  simp only [variablesOf, freeVariables, List.length_map, ← List.countP_eq_length_filter]
  exact List.countP_mono_left fun v hv => by simpa using hmem v hv

/-- An expression in some of the variables of another, with the same values, has a table within the
same limit. In all of the variables it has the same rows. -/
theorem exists_build_of_evaluateUnder_eq (h : build e limit = .ok t)
    (hsub : ∀ v ∈ freeVariables f.toList, v ∈ freeVariables e.toList)
    (hvalue : ∀ σ : Assignment, σ.Covers e.toList →
      evaluateUnder σ f.toList = evaluateUnder σ e.toList) :
    ∃ u, build f limit = .ok u ∧ (variablesOf f = t.names → u.rows = t.rows) := by
  have hcovers := covers_of_mem_assignments (false_mem_assignments (variablesOf e))
  obtain ⟨value, hv⟩ := exists_value_of_build h hcovers
  rw [← hvalue _ hcovers] at hv
  have hcovers' : Assignment.Covers _ f.toList := fun v hv => hcovers v (hsub v hv)
  obtain ⟨ψ, hψ, -⟩ := (Expression.evaluateUnder_eq_ok_iff hcovers'.agrees).mp hv
  have hlimit := exceeds_eq_none_of_le (exceeds_of_build h) (length_variablesOf_le hsub)
  have hu := build_of_phrase_within hψ hlimit
  refine ⟨_, hu, fun hnames => ?_⟩
  rw [names_of_build h] at hnames
  have hvars : freeVariables e.toList = freeVariables f.toList :=
    List.map_injective_iff.mpr Char.toString_injective hnames.symm
  exact (rows_eq_of_evaluateUnder_eq h hu hvars fun σ hσ => (hvalue σ hσ).symm).symm

/-! ## Tables of normal forms -/

theorem exists_build_disjunctiveForm (h : build e limit = .ok t) :
    ∃ d, build t.disjunctiveForm limit = .ok d ∧ d.disjunctiveForm = t.disjunctiveForm ∧
      (variablesOf t.disjunctiveForm = t.names → d.rows = t.rows) := by
  have hvars := freeVariables_disjunctiveForm h
  have hsub : ∀ v ∈ freeVariables t.disjunctiveForm.toList, v ∈ freeVariables e.toList := by
    rw [hvars]
    split <;> simp
  obtain ⟨d, hd, hrows⟩ := exists_build_of_evaluateUnder_eq h hsub fun σ hσ =>
    evaluateUnder_disjunctiveForm h hσ
  refine ⟨d, hd, ?_, hrows⟩
  by_cases hsat : t.isSatisfiable
  · have hnames : variablesOf t.disjunctiveForm = t.names := by
      rw [variablesOf, hvars, if_pos hsat, names_of_build h, variablesOf]
    exact (forms_eq_of_rows_eq (hrows hnames)).1
  · -- The form has collapsed, and so has that of the keyword.
    have hform := (disjunctiveForm_eq_false_iff h).mpr hsat
    rw [hform] at hd ⊢
    refine (disjunctiveForm_eq_false_iff hd).mpr fun hkeyword => ?_
    obtain ⟨σ, -, hv⟩ := (isSatisfiable_iff hd).mp hkeyword
    have hfalse : evaluateUnder σ "false".toList = .ok false :=
      Expression.evaluateUnder_keyword σ false
    rw [hfalse] at hv
    cases hv

theorem exists_build_conjunctiveForm (h : build e limit = .ok t) :
    ∃ c, build t.conjunctiveForm limit = .ok c ∧ c.conjunctiveForm = t.conjunctiveForm ∧
      (variablesOf t.conjunctiveForm = t.names → c.rows = t.rows) := by
  have hvars := freeVariables_conjunctiveForm h
  have hsub : ∀ v ∈ freeVariables t.conjunctiveForm.toList, v ∈ freeVariables e.toList := by
    rw [hvars]
    split <;> simp
  obtain ⟨c, hc, hrows⟩ := exists_build_of_evaluateUnder_eq h hsub fun σ hσ =>
    evaluateUnder_conjunctiveForm h hσ
  refine ⟨c, hc, ?_, hrows⟩
  by_cases htaut : t.isTautology
  · have hform := (conjunctiveForm_eq_true_iff h).mpr htaut
    rw [hform] at hc ⊢
    exact (conjunctiveForm_eq_true_iff hc).mpr ((isTautology_iff hc).mpr fun σ _ =>
      Expression.evaluateUnder_keyword σ true)
  · have hnames : variablesOf t.conjunctiveForm = t.names := by
      rw [variablesOf, hvars, if_neg htaut, names_of_build h, variablesOf]
    exact (forms_eq_of_rows_eq (hrows hnames)).2

/-- A normal form has a table within the limit of the first one, and the table gives back the form.
The disjunctive form has all the variables if the table is satisfiable and else none, the
conjunctive form all if it is no tautology and else none. With all the variables the rows are the
rows of the first table. -/
theorem build_normalForms_fixed (e : String) (limit : Option Int) (t : TruthTable)
    (h : build e limit = .ok t) :
    (∃ d, build t.disjunctiveForm limit = .ok d ∧ d.disjunctiveForm = t.disjunctiveForm ∧
      (variablesOf t.disjunctiveForm = t.names → d.rows = t.rows)) ∧
    (∃ c, build t.conjunctiveForm limit = .ok c ∧ c.conjunctiveForm = t.conjunctiveForm ∧
      (variablesOf t.conjunctiveForm = t.names → c.rows = t.rows)) ∧
    variablesOf t.disjunctiveForm = (if t.isSatisfiable then t.names else []) ∧
    variablesOf t.conjunctiveForm = if t.isTautology then [] else t.names := by
  refine ⟨exists_build_disjunctiveForm h, exists_build_conjunctiveForm h, ?_, ?_⟩
  · rw [names_of_build h, variablesOf, variablesOf, freeVariables_disjunctiveForm h]
    split <;> rfl
  · rw [names_of_build h, variablesOf, variablesOf, freeVariables_conjunctiveForm h]
    split <;> rfl

theorem build_normalForms_fixed_contradiction :
    build "A ∧ ¬A" (some 1) =
        .ok ⟨"A ∧ ¬A", ["A"], [⟨[("A", false)], false⟩, ⟨[("A", true)], false⟩]⟩ ∧
      (∃ d, build "false" (some 1) = .ok d ∧ d.disjunctiveForm = "false") ∧
      (∃ c, build "(A) ∧ (¬A)" (some 1) = .ok c ∧ c.conjunctiveForm = "(A) ∧ (¬A)" ∧
        c.rows = [⟨[("A", false)], false⟩, ⟨[("A", true)], false⟩]) ∧
      variablesOf "false" = [] ∧ variablesOf "(A) ∧ (¬A)" = ["A"] := by
  have ht : build "A ∧ ¬A" (some 1) =
      .ok ⟨"A ∧ ¬A", ["A"], [⟨[("A", false)], false⟩, ⟨[("A", true)], false⟩]⟩ := by rfl
  obtain ⟨⟨d, hd, hdform, -⟩, ⟨c, hc, hcform, hrows⟩, hdvars, hcvars⟩ :=
    build_normalForms_fixed _ _ _ ht
  exact ⟨ht, ⟨d, hd, hdform⟩, ⟨c, hc, hcform, hrows hcvars⟩, hdvars, hcvars⟩

end TruthTable

end Sentential
