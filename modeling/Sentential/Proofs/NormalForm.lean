import Sentential.NormalForm
import Sentential.Proofs.Compound
import Sentential.Proofs.TruthTable

/-!
# What normal forms mean

Literals, clauses and their joints are phrases of the grammar, and the truth value of a joint is the
fold of the values of its parts. A row agrees with values if they give each of its bindings. The
disjunctive form is true exactly if a satisfying row agrees, the conjunctive form false exactly if a
falsifying row does. In the table of an expression one row agrees with any given values, and its
result is the value of the expression.
-/
namespace Sentential

namespace Expression.Denotes

variable {ν : String → Bool} {s t : List Char} {a b : Bool}

theorem single {tier : Tier} (h : Denotes ν tier.part s a) : Denotes ν tier.chain s a := by
  obtain ⟨φ, hφ, rfl⟩ := h
  exact ⟨φ, hφ.single, rfl⟩

theorem chain_of_factor (h : Denotes ν .factor s a) (tier : Tier) : Denotes ν tier.chain s a := by
  obtain ⟨φ, ⟨w, hs, hd⟩, rfl⟩ := h
  exact ⟨φ, ⟨w, hs, hd.chain_of_factor tier⟩, rfl⟩

theorem expression_of_chain {tier : Tier} (h : Denotes ν tier.chain s a) :
    Denotes ν .expression s a := by
  obtain ⟨φ, ⟨w, hs, hd⟩, rfl⟩ := h
  exact ⟨φ, ⟨w, hs, hd.expression_of_chain⟩, rfl⟩

theorem keyword (value : Bool) : Denotes ν .factor (keyword value) value :=
  ⟨_, .keyword value, rfl⟩

theorem named {v : Char} (h : isVariable v) : Denotes ν .factor [v] (ν v.toString) :=
  ⟨_, .named h, rfl⟩

theorem negation (h : Denotes ν .factor s a) :
    Denotes ν .factor (Operator.negation.symbol :: s) (!a) := by
  obtain ⟨φ, hφ, rfl⟩ := h
  exact ⟨_, hφ.negation, rfl⟩

theorem group (h : Denotes ν .expression s a) : Denotes ν .factor ('(' :: s ++ [')']) a := by
  obtain ⟨φ, hφ, rfl⟩ := h
  exact ⟨φ, hφ.group, rfl⟩

theorem extend {op : BinaryOp} (hs : Denotes ν op.tier.chain s a)
    (ht : Denotes ν op.tier.part t b) :
    Denotes ν op.tier.chain (s ++ ' ' :: (Operator.binary op).symbol :: ' ' :: t)
      (op.apply a b) := by
  obtain ⟨φ, hφ, rfl⟩ := hs
  obtain ⟨ψ, hψ, rfl⟩ := ht
  refine ⟨_, hφ.extend op hψ, ?_⟩
  rw [Formula.map, Formula.eval_binary]

end Expression.Denotes

def Row.agrees (ν : String → Bool) (r : Row) : Bool := r.bindings.all fun b => ν b.1 == b.2

def Row.NamesVariables (r : Row) : Prop :=
  ∀ b ∈ r.bindings, ∃ v, Expression.isVariable v ∧ b.1 = v.toString

instance (r : Row) : Decidable r.NamesVariables :=
  decidable_of_iff (r.bindings.all fun b => Expression.alphabet.any fun v => b.1 == v.toString) <| by
    simp only [Row.NamesVariables, List.all_eq_true, List.any_eq_true, Expression.mem_alphabet,
      beq_iff_eq]

namespace NormalForm

open Expression (Denotes isVariable)

variable {ν : String → Bool} {α : Type} {op : BinaryOp} {text : α → List Char} {value : α → Bool}

/-! ## Joined texts -/

theorem joinWith_singleton (op : BinaryOp) (s : List Char) : joinWith op [s] = s := by
  simp [joinWith, List.intercalate]

theorem joinWith_cons_cons (op : BinaryOp) (s t : List Char) (parts : List (List Char)) :
    joinWith op (s :: t :: parts) =
      s ++ ' ' :: (Operator.binary op).symbol :: ' ' :: joinWith op (t :: parts) := by
  simp [joinWith, List.intercalate]

theorem joinWith_merge (op : BinaryOp) (s t : List Char) (parts : List (List Char)) :
    joinWith op (s :: t :: parts) =
      joinWith op ((s ++ ' ' :: (Operator.binary op).symbol :: ' ' :: t) :: parts) := by
  cases parts with
  | nil => rw [joinWith_cons_cons, joinWith_singleton, joinWith_singleton]
  | cons u parts =>
    simp only [joinWith_cons_cons, List.append_assoc, List.cons_append]

theorem denotes_joinWith {s : List Char} {a : Bool} (hs : Denotes ν op.tier.chain s a)
    {xs : List α} (h : ∀ x ∈ xs, Denotes ν op.tier.part (text x) (value x)) :
    Denotes ν op.tier.chain (joinWith op (s :: xs.map text))
      (xs.foldl (fun b x => op.apply b (value x)) a) := by
  induction xs generalizing s a with
  | nil =>
    rw [List.map_nil, joinWith_singleton]
    exact hs
  | cons x xs ih =>
    simp only [List.forall_mem_cons] at h
    rw [List.map_cons, joinWith_merge]
    exact ih (hs.extend h.1) h.2

theorem denotes_joinClauses (op : BinaryOp) (empty : Bool) (he : ∀ b, op.apply empty b = b)
    {xs : List α} (h : ∀ x ∈ xs, Denotes ν op.tier.part (text x) (value x)) :
    Denotes ν op.tier.chain (joinClauses op empty (xs.map text))
      (xs.foldl (fun b x => op.apply b (value x)) empty) := by
  cases xs with
  | nil => exact (Denotes.keyword empty).chain_of_factor _
  | cons x xs =>
    simp only [List.forall_mem_cons] at h
    rw [List.foldl_cons, he]
    exact denotes_joinWith h.1.single h.2

theorem denotes_clause (op : BinaryOp) (empty : Bool) (he : ∀ b, op.apply empty b = b) {xs : List α}
    (h : ∀ x ∈ xs, Denotes ν op.tier.part (text x) (value x)) :
    Denotes ν .factor (clause op empty (xs.map text))
      (xs.foldl (fun b x => op.apply b (value x)) empty) := by
  cases xs with
  | nil => exact Denotes.keyword empty
  | cons x xs =>
    simp only [List.forall_mem_cons] at h
    rw [List.foldl_cons, he]
    exact (denotes_joinWith h.1.single h.2).expression_of_chain.group

theorem foldl_conjunction (value : α → Bool) (xs : List α) (a : Bool) :
    xs.foldl (fun b x => BinaryOp.conjunction.apply b (value x)) a = (a && xs.all value) := by
  induction xs generalizing a with
  | nil => simp
  | cons x xs ih => rw [List.foldl_cons, ih, List.all_cons, BinaryOp.apply, Bool.and_assoc]

theorem foldl_disjunction (value : α → Bool) (xs : List α) (a : Bool) :
    xs.foldl (fun b x => BinaryOp.disjunction.apply b (value x)) a = (a || xs.any value) := by
  induction xs generalizing a with
  | nil => simp
  | cons x xs ih => rw [List.foldl_cons, ih, List.any_cons, BinaryOp.apply, Bool.or_assoc]

/-! ## Rows and tables -/

theorem denotes_literal {v : Char} (hv : isVariable v) (negated : Bool) :
    Denotes ν .factor (literal v.toString negated) (ν v.toString != negated) := by
  have h : Denotes ν .factor v.toString.toList (ν v.toString) := by
    rw [Char.toList_toString]
    exact .named hv
  cases negated with
  | false => simpa [literal] using h
  | true => simpa [literal] using h.negation

theorem denotes_rowConjunction {r : Row} (h : r.NamesVariables) :
    Denotes ν .factor (rowConjunction r) (r.agrees ν) := by
  have hliteral : ∀ b ∈ r.bindings,
      Denotes ν .factor (literal b.1 (!b.2)) (ν b.1 == b.2) := by
    intro b hb
    obtain ⟨v, hv, hname⟩ := h b hb
    have he : (ν b.1 == b.2) = (ν b.1 != !b.2) := by cases ν b.1 <;> cases b.2 <;> rfl
    rw [he, hname]
    exact denotes_literal hv (!b.2)
  have hc := denotes_clause .conjunction true (fun b => Bool.true_and b) hliteral
  rwa [foldl_conjunction, Bool.true_and] at hc

theorem denotes_rowDisjunction {r : Row} (h : r.NamesVariables) :
    Denotes ν .factor (rowDisjunction r) (!r.agrees ν) := by
  have hliteral : ∀ b ∈ r.bindings, Denotes ν .factor (literal b.1 b.2) (!(ν b.1 == b.2)) := by
    intro b hb
    obtain ⟨v, hv, hname⟩ := h b hb
    rw [hname]
    exact denotes_literal hv b.2
  have hc := denotes_clause .disjunction false (fun b => Bool.false_or b) hliteral
  rwa [foldl_disjunction, Bool.false_or, ← List.not_all_eq_any_not] at hc

theorem denotes_disjunctive {t : TruthTable} (h : ∀ r ∈ t.rows, r.NamesVariables) :
    Denotes ν .expression (disjunctive t) (t.satisfying.any (Row.agrees ν)) := by
  have hrows : ∀ r ∈ t.satisfying, Denotes ν .factor (rowConjunction r) (r.agrees ν) :=
    fun r hr => denotes_rowConjunction (h r (List.mem_filter.mp hr).1)
  have hc := denotes_joinClauses .disjunction false (fun b => Bool.false_or b) hrows
  rw [foldl_disjunction, Bool.false_or] at hc
  exact hc.expression_of_chain

theorem denotes_conjunctive {t : TruthTable} (h : ∀ r ∈ t.rows, r.NamesVariables) :
    Denotes ν .expression (conjunctive t) (t.falsifying.all fun r => !r.agrees ν) := by
  have hrows : ∀ r ∈ t.falsifying, Denotes ν .factor (rowDisjunction r) (!r.agrees ν) :=
    fun r hr => denotes_rowDisjunction (h r (List.mem_filter.mp hr).1)
  have hc := denotes_joinClauses .conjunction true (fun b => Bool.true_and b) hrows
  rw [foldl_conjunction, Bool.true_and] at hc
  exact hc.expression_of_chain

/-! ## Variables of normal forms -/

theorem exists_mem_of_joinWith {v : Char} (hv : isVariable v) {parts : List (List Char)}
    (h : v ∈ joinWith op parts) : ∃ part ∈ parts, v ∈ part := by
  induction parts with
  | nil => simp [joinWith, List.intercalate] at h
  | cons s parts ih =>
    cases parts with
    | nil =>
      rw [joinWith_singleton] at h
      exact ⟨s, List.mem_cons_self, h⟩
    | cons t parts =>
      have hspace : v ≠ ' ' := fun he => absurd (he ▸ hv) (by decide)
      have hsymbol : v ≠ (Operator.binary op).symbol := fun he =>
        absurd (he ▸ hv) (by cases op <;> decide)
      simp only [joinWith_cons_cons, List.mem_append, List.mem_cons, hspace, hsymbol,
        false_or] at h
      rcases h with h | h
      · exact ⟨s, List.mem_cons_self, h⟩
      · obtain ⟨part, hp, hm⟩ := ih h
        exact ⟨part, List.mem_cons_of_mem s hp, hm⟩

theorem not_mem_keyword {v : Char} (hv : isVariable v) (value : Bool) : v ∉ keyword value := by
  intro h
  have hc := Expression.isCapital_of_isLowerLetter (isLowerLetter_of_mem_keyword h)
  rw [Expression.isVariable_eq_false hc] at hv
  cases hv

theorem exists_mem_of_joinClauses {v : Char} (hv : isVariable v) {empty : Bool}
    {parts : List (List Char)} (h : v ∈ joinClauses op empty parts) :
    ∃ part ∈ parts, v ∈ part := by
  unfold joinClauses at h
  split at h
  · exact absurd h (not_mem_keyword hv empty)
  · exact exists_mem_of_joinWith hv h

theorem exists_mem_of_clause {v : Char} (hv : isVariable v) {empty : Bool}
    {parts : List (List Char)} (h : v ∈ clause op empty parts) : ∃ part ∈ parts, v ∈ part := by
  unfold clause at h
  split at h
  · exact absurd h (not_mem_keyword hv empty)
  · have hleft : v ≠ '(' := fun he => absurd (he ▸ hv) (by decide)
    have hright : v ≠ ')' := fun he => absurd (he ▸ hv) (by decide)
    simp only [List.cons_append, List.mem_cons, List.mem_append, hleft, hright, false_or,
      List.not_mem_nil, or_false] at h
    exact exists_mem_of_joinWith hv h

theorem mem_name_of_literal {v : Char} (hv : isVariable v) {name : String} {negated : Bool}
    (h : v ∈ literal name negated) : v ∈ name.toList := by
  cases negated with
  | false => simpa [literal] using h
  | true =>
    have hsymbol : v ≠ Operator.negation.symbol := fun he => absurd (he ▸ hv) (by decide)
    simpa [literal, hsymbol] using h

theorem exists_binding_of_clause {v : Char} (hv : isVariable v) {empty : Bool} {r : Row}
    (hr : r.NamesVariables) {negated : String × Bool → Bool}
    (h : v ∈ clause op empty (r.bindings.map fun b => literal b.1 (negated b))) :
    ∃ b ∈ r.bindings, b.1 = v.toString := by
  obtain ⟨part, hpart, hmem⟩ := exists_mem_of_clause hv h
  obtain ⟨b, hb, rfl⟩ := List.mem_map.mp hpart
  obtain ⟨u, -, hname⟩ := hr b hb
  have hu := mem_name_of_literal hv hmem
  rw [hname, Char.toList_toString, List.mem_singleton] at hu
  exact ⟨b, hb, by rw [hname, hu]⟩

theorem exists_binding_of_joinClauses {v : Char} (hv : isVariable v) {inner : BinaryOp}
    {empty neutral : Bool} {rows : List Row} {negated : String × Bool → Bool}
    (hrows : ∀ r ∈ rows, r.NamesVariables)
    (h : v ∈ joinClauses op empty (rows.map fun r =>
      clause inner neutral (r.bindings.map fun b => literal b.1 (negated b)))) :
    ∃ r ∈ rows, ∃ b ∈ r.bindings, b.1 = v.toString := by
  obtain ⟨part, hpart, hmem⟩ := exists_mem_of_joinClauses hv h
  obtain ⟨r, hr, rfl⟩ := List.mem_map.mp hpart
  exact ⟨r, hr, exists_binding_of_clause hv (hrows r hr) hmem⟩

theorem agrees_joinClauses {σ : Assignment} {inner : BinaryOp} {empty neutral : Bool}
    {rows : List Row} {negated : String × Bool → Bool} (hrows : ∀ r ∈ rows, r.NamesVariables)
    (hσ : ∀ r ∈ rows, ∀ b ∈ r.bindings, σ.lookup b.1 = some (ν b.1)) :
    σ.Agrees ν (joinClauses op empty (rows.map fun r =>
      clause inner neutral (r.bindings.map fun b => literal b.1 (negated b)))) := by
  intro v hv
  obtain ⟨hmem, hvar⟩ := Expression.mem_freeVariables.mp hv
  obtain ⟨r, hr, b, hb, hname⟩ := exists_binding_of_joinClauses hvar hrows hmem
  rw [← hname]
  exact hσ r hr b hb

variable {t : TruthTable} {σ : Assignment}

theorem evaluateUnder_disjunctive (hrows : ∀ r ∈ t.rows, r.NamesVariables)
    (hσ : ∀ r ∈ t.rows, ∀ b ∈ r.bindings, σ.lookup b.1 = some (ν b.1)) :
    Expression.evaluateUnder σ (disjunctive t) = .ok (t.satisfying.any (Row.agrees ν)) := by
  have hsub : ∀ r ∈ t.satisfying, r ∈ t.rows := fun r hr => (List.mem_filter.mp hr).1
  have hagrees : σ.Agrees ν (disjunctive t) :=
    agrees_joinClauses (fun r hr => hrows r (hsub r hr)) (fun r hr => hσ r (hsub r hr))
  exact (Expression.evaluateUnder_eq_ok_iff hagrees).mpr (denotes_disjunctive hrows)

theorem evaluateUnder_conjunctive (hrows : ∀ r ∈ t.rows, r.NamesVariables)
    (hσ : ∀ r ∈ t.rows, ∀ b ∈ r.bindings, σ.lookup b.1 = some (ν b.1)) :
    Expression.evaluateUnder σ (conjunctive t) =
      .ok (t.falsifying.all fun r => !r.agrees ν) := by
  have hsub : ∀ r ∈ t.falsifying, r ∈ t.rows := fun r hr => (List.mem_filter.mp hr).1
  have hagrees : σ.Agrees ν (conjunctive t) :=
    agrees_joinClauses (fun r hr => hrows r (hsub r hr)) (fun r hr => hσ r (hsub r hr))
  exact (Expression.evaluateUnder_eq_ok_iff hagrees).mpr (denotes_conjunctive hrows)

end NormalForm

/-! ## Values of normal forms -/

/-- Some row agrees with the values, and every row that does has the result. -/
structure TruthTable.Determines (t : TruthTable) (ν : String → Bool) (result : Bool) : Prop where
  exists_agrees : ∃ r ∈ t.rows, r.agrees ν
  result_eq : ∀ r ∈ t.rows, r.agrees ν → r.result = result

namespace TruthTable.Determines

open Expression (evaluateUnder)

variable {t : TruthTable} {ν : String → Bool} {result : Bool} {σ : Assignment}

theorem any_satisfying (h : t.Determines ν result) :
    t.satisfying.any (Row.agrees ν) = result := by
  obtain ⟨r, hr, ha⟩ := h.exists_agrees
  have hresult := h.result_eq
  cases result with
  | true => exact List.any_eq_true.mpr ⟨r, List.mem_filter.mpr ⟨hr, hresult r hr ha⟩, ha⟩
  | false =>
    refine List.any_eq_false.mpr fun r hr ha => ?_
    obtain ⟨hr, htrue⟩ := List.mem_filter.mp hr
    rw [hresult r hr ha] at htrue
    cases htrue

theorem all_falsifying (h : t.Determines ν result) :
    (t.falsifying.all fun r => !r.agrees ν) = result := by
  obtain ⟨r, hr, ha⟩ := h.exists_agrees
  have hresult := h.result_eq
  cases result with
  | true =>
    refine List.all_eq_true.mpr fun r hr => ?_
    obtain ⟨hr, hfalse⟩ := List.mem_filter.mp hr
    cases hagrees : r.agrees ν with
    | false => rfl
    | true =>
      rw [hresult r hr hagrees] at hfalse
      cases hfalse
  | false =>
    have hmem : r ∈ t.falsifying := List.mem_filter.mpr ⟨hr, by rw [hresult r hr ha]; rfl⟩
    exact List.all_eq_false.mpr ⟨r, hmem, by simp [ha]⟩

theorem evaluateUnder_disjunctive (h : t.Determines ν result)
    (hrows : ∀ r ∈ t.rows, r.NamesVariables)
    (hσ : ∀ r ∈ t.rows, ∀ b ∈ r.bindings, σ.lookup b.1 = some (ν b.1)) :
    evaluateUnder σ (NormalForm.disjunctive t) = .ok result := by
  rw [NormalForm.evaluateUnder_disjunctive hrows hσ, h.any_satisfying]

theorem evaluateUnder_conjunctive (h : t.Determines ν result)
    (hrows : ∀ r ∈ t.rows, r.NamesVariables)
    (hσ : ∀ r ∈ t.rows, ∀ b ∈ r.bindings, σ.lookup b.1 = some (ν b.1)) :
    evaluateUnder σ (NormalForm.conjunctive t) = .ok result := by
  rw [NormalForm.evaluateUnder_conjunctive hrows hσ, h.all_falsifying]

end TruthTable.Determines

namespace TruthTable

open Expression (evaluateUnder)

variable {e : String} {φ : Formula Atom} {ν : String → Bool}

theorem exists_variable_of_mem {a : Assignment} {b : String × Bool}
    (ha : a ∈ assignments (variablesOf e)) (hb : b ∈ a) :
    ∃ v ∈ Expression.freeVariables e.toList, v.toString = b.1 := by
  have hname : b.1 ∈ variablesOf e := mem_assignments.mp ha ▸ List.mem_map_of_mem hb
  exact List.mem_map.mp hname

theorem namesVariables_rowOf {a : Assignment} (h : a ∈ assignments (variablesOf e)) :
    (rowOf φ a).NamesVariables := by
  intro b hb
  obtain ⟨v, hv, he⟩ := exists_variable_of_mem h hb
  exact ⟨v, (Expression.mem_freeVariables.mp hv).2, he.symm⟩

theorem exists_agrees_rowOf (ν : String → Bool) :
    ∃ r ∈ (assignments (variablesOf e)).map (rowOf φ), r.agrees ν := by
  have ha : (variablesOf e).map (fun name => (name, ν name)) ∈ assignments (variablesOf e) := by
    rw [mem_assignments, List.map_map]
    exact List.map_id _
  refine ⟨_, List.mem_map_of_mem ha, List.all_eq_true.mpr fun b hb => ?_⟩
  obtain ⟨name, -, rfl⟩ := List.mem_map.mp hb
  exact beq_self_eq_true (ν name)

theorem rowOf_result {a : Assignment} (hφ : Expression.Phrase .expression e.toList φ)
    (ha : a ∈ assignments (variablesOf e)) (h : (rowOf φ a).agrees ν) :
    (rowOf φ a).result = (φ.map (Atom.value ν)).eval := by
  have hnames := mem_assignments.mp ha
  rw [rowOf]
  refine congrArg Formula.eval (Formula.map_congr fun atom hatom => ?_)
  cases atom with
  | constant value => rfl
  | named v =>
    have hv : v.toString ∈ a.map Prod.fst :=
      hnames ▸ List.mem_map_of_mem (Expression.mem_freeVariables_of_phrase hφ hatom)
    obtain ⟨b, hb, hname⟩ := List.mem_map.mp hv
    have hvalue : a.valuation b.1 = b.2 :=
      Assignment.valuation_eq (hnames ▸ nodup_variablesOf e) hb
    have hν : ν b.1 = b.2 := eq_of_beq (List.all_eq_true.mp h b hb)
    rw [Atom.value, Atom.value, ← hname, hvalue, hν]

/-- Both normal forms of a table have the value of the expression that the table is of. -/
theorem evaluateUnder_normalForms {e : String} {limit : Option Int} {t : TruthTable}
    (h : build e limit = .ok t) (σ : Assignment) (hσ : σ.Covers e.toList) :
    ∃ value, evaluateUnder σ t.disjunctiveForm.toList = .ok value ∧
      evaluateUnder σ t.conjunctiveForm.toList = .ok value ∧
      evaluateUnder σ e.toList = .ok value := by
  obtain ⟨φ, hφ, rfl⟩ := exists_phrase_of_build h
  have hdetermines : Determines
      ⟨e, variablesOf e, (assignments (variablesOf e)).map (rowOf φ)⟩ σ.valuation
      (φ.map (Atom.value σ.valuation)).eval :=
    ⟨exists_agrees_rowOf σ.valuation, List.forall_mem_map.mpr fun a ha => rowOf_result hφ ha⟩
  have hnames : ∀ r ∈ (assignments (variablesOf e)).map (rowOf φ), r.NamesVariables :=
    List.forall_mem_map.mpr fun a ha => namesVariables_rowOf ha
  have hlookup : ∀ r ∈ (assignments (variablesOf e)).map (rowOf φ), ∀ b ∈ r.bindings,
      σ.lookup b.1 = some (σ.valuation b.1) := by
    refine List.forall_mem_map.mpr fun a ha b hb => ?_
    obtain ⟨v, hv, he⟩ := exists_variable_of_mem ha hb
    rw [← he]
    exact hσ.agrees v hv
  refine ⟨(φ.map (Atom.value σ.valuation)).eval, ?_, ?_, ?_⟩
  · rw [disjunctiveForm, String.toList_ofList]
    exact hdetermines.evaluateUnder_disjunctive hnames hlookup
  · rw [conjunctiveForm, String.toList_ofList]
    exact hdetermines.evaluateUnder_conjunctive hnames hlookup
  · exact (Expression.evaluateUnder_eq_ok_iff hσ.agrees).mpr ⟨φ, hφ, rfl⟩

theorem evaluateUnder_normalForms_excludedMiddle :
    build "A ∨ ¬A" (some 16) =
        .ok ⟨"A ∨ ¬A", ["A"], [⟨[("A", false)], true⟩, ⟨[("A", true)], true⟩]⟩ ∧
      Assignment.Covers [("B", false), ("A", true)] "A ∨ ¬A".toList ∧
      ∃ value, evaluateUnder [("B", false), ("A", true)] "(¬A) ∨ (A)".toList = .ok value ∧
        evaluateUnder [("B", false), ("A", true)] "true".toList = .ok value ∧
        evaluateUnder [("B", false), ("A", true)] "A ∨ ¬A".toList = .ok value := by
  have hb : build "A ∨ ¬A" (some 16) =
      .ok ⟨"A ∨ ¬A", ["A"], [⟨[("A", false)], true⟩, ⟨[("A", true)], true⟩]⟩ := by rfl
  have hc : Assignment.Covers [("B", false), ("A", true)] "A ∨ ¬A".toList := by decide
  exact ⟨hb, hc, evaluateUnder_normalForms hb _ hc⟩

/-! ## Tables of any rows -/

variable {t : TruthTable} {σ : Assignment}

theorem agrees_valuation_iff {r : Row} (h : ∀ b ∈ r.bindings, (σ.lookup b.1).isSome) :
    r.agrees σ.valuation ↔ ∀ b ∈ r.bindings, σ.lookup b.1 = some b.2 := by
  rw [Row.agrees, List.all_eq_true]
  refine forall₂_congr fun b hb => ?_
  rw [Assignment.lookup_eq_valuation (h b hb), beq_iff_eq, Option.some.injEq]

theorem any_satisfying_iff (h : ∀ r ∈ t.rows, ∀ b ∈ r.bindings, (σ.lookup b.1).isSome) :
    t.satisfying.any (Row.agrees σ.valuation) = true ↔
      ∃ r ∈ t.rows, r.result = true ∧ ∀ b ∈ r.bindings, σ.lookup b.1 = some b.2 := by
  simp only [List.any_eq_true, satisfying, List.mem_filter, and_assoc]
  refine exists_congr fun r => and_congr_right fun hr => ?_
  rw [agrees_valuation_iff (h r hr)]

theorem all_falsifying_iff (h : ∀ r ∈ t.rows, ∀ b ∈ r.bindings, (σ.lookup b.1).isSome) :
    (t.falsifying.all fun r => !r.agrees σ.valuation) = false ↔
      ∃ r ∈ t.rows, r.result = false ∧ ∀ b ∈ r.bindings, σ.lookup b.1 = some b.2 := by
  simp only [List.all_eq_false, falsifying, List.mem_filter, Bool.not_eq_true', and_assoc,
    Bool.not_eq_false]
  refine exists_congr fun r => and_congr_right fun hr => ?_
  rw [agrees_valuation_iff (h r hr)]

/-- The normal forms of any rows have values once the names in the rows have. The disjunctive form
is true exactly if a satisfying row has these values, the conjunctive form false exactly if a
falsifying row has. -/
theorem evaluateUnder_forms_iff_row (t : TruthTable) (σ : Assignment)
    (hnames : ∀ r ∈ t.rows, r.NamesVariables)
    (hσ : ∀ r ∈ t.rows, ∀ b ∈ r.bindings, (σ.lookup b.1).isSome) :
    (∃ value, evaluateUnder σ t.disjunctiveForm.toList = .ok value ∧
      (value = true ↔
        ∃ r ∈ t.rows, r.result = true ∧ ∀ b ∈ r.bindings, σ.lookup b.1 = some b.2)) ∧
    ∃ value, evaluateUnder σ t.conjunctiveForm.toList = .ok value ∧
      (value = false ↔
        ∃ r ∈ t.rows, r.result = false ∧ ∀ b ∈ r.bindings, σ.lookup b.1 = some b.2) := by
  have hlookup : ∀ r ∈ t.rows, ∀ b ∈ r.bindings, σ.lookup b.1 = some (σ.valuation b.1) :=
    fun r hr b hb => Assignment.lookup_eq_valuation (hσ r hr b hb)
  rw [disjunctiveForm, conjunctiveForm, String.toList_ofList, String.toList_ofList]
  exact ⟨⟨_, NormalForm.evaluateUnder_disjunctive hnames hlookup, any_satisfying_iff hσ⟩,
    ⟨_, NormalForm.evaluateUnder_conjunctive hnames hlookup, all_falsifying_iff hσ⟩⟩

/-- Rows of different lengths, one without bindings, one twice, and two that cannot agree with the
same values as themselves or as each other. -/
def unevenRows : List Row :=
  [⟨[("A", true), ("A", false)], true⟩, ⟨[], false⟩, ⟨[("B", false)], true⟩,
    ⟨[("B", false), ("A", true)], false⟩, ⟨[("B", false)], true⟩]

theorem evaluateUnder_forms_iff_row_uneven :
    (∀ r ∈ unevenRows, r.NamesVariables) ∧
      (∀ r ∈ unevenRows, ∀ b ∈ r.bindings,
        (List.lookup b.1 [("C", true), ("A", true), ("B", false)]).isSome) ∧
      (∃ value, evaluateUnder [("C", true), ("A", true), ("B", false)]
          "(A ∧ ¬A) ∨ (¬B) ∨ (¬B)".toList = .ok value ∧
        (value = true ↔ ∃ r ∈ unevenRows, r.result = true ∧ ∀ b ∈ r.bindings,
          List.lookup b.1 [("C", true), ("A", true), ("B", false)] = some b.2)) ∧
      ∃ value, evaluateUnder [("C", true), ("A", true), ("B", false)]
          "false ∧ (B ∨ ¬A)".toList = .ok value ∧
        (value = false ↔ ∃ r ∈ unevenRows, r.result = false ∧ ∀ b ∈ r.bindings,
          List.lookup b.1 [("C", true), ("A", true), ("B", false)] = some b.2) := by
  have hnames : ∀ r ∈ unevenRows, r.NamesVariables := by decide
  have hσ : ∀ r ∈ unevenRows, ∀ b ∈ r.bindings,
      (List.lookup b.1 [("C", true), ("A", true), ("B", false)]).isSome := by decide
  exact ⟨hnames, hσ, evaluateUnder_forms_iff_row ⟨"", ["A"], unevenRows⟩ _ hnames hσ⟩

end TruthTable

end Sentential
