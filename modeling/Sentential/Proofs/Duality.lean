import Sentential.Proofs.Equivalence

/-!
# Duality

Negating an expression flips the results of its table and leaves the bindings. So the rows of the
one normal form of the expression are the rows of the other form of its negation, and clause by
clause these texts are dual: conjunction and disjunction change places, as do the keywords, and each
literal changes its sign.
-/
namespace Sentential

/-- Conjunction and disjunction exchanged. -/
def BinaryOp.dual : BinaryOp → BinaryOp
  | conjunction => disjunction
  | disjunction => conjunction
  | op => op

def Row.flip (r : Row) : Row := { r with result := !r.result }

namespace NormalForm

open Expression (isVariable)

def dualSymbol (c : Char) : Char :=
  match Operator.ofSymbol? c with
  | some (.binary op) => (Operator.binary op.dual).symbol
  | _ => c

/-- Conjunction and disjunction exchanged, each keyword exchanged for the other, and the negation of
each literal put in or taken out. -/
def dual : List Char → List Char
  | 't' :: 'r' :: 'u' :: 'e' :: rest => keyword false ++ dual rest
  | 'f' :: 'a' :: 'l' :: 's' :: 'e' :: rest => keyword true ++ dual rest
  | '¬' :: v :: rest => if isVariable v then v :: dual rest else '¬' :: dual (v :: rest)
  | c :: rest => if isVariable c then '¬' :: c :: dual rest else dualSymbol c :: dual rest
  | [] => []

/-- The one text is the dual of the other, whatever stands behind it. -/
def IsDual (s t : List Char) : Prop := ∀ rest, dual (s ++ rest) = t ++ dual rest

namespace IsDual

variable {s t u w : List Char} {c d : Char}

theorem nil : IsDual [] [] := fun _ => rfl

theorem append (hs : IsDual s t) (hu : IsDual u w) : IsDual (s ++ u) (t ++ w) := by
  intro rest
  rw [List.append_assoc, hs, hu, List.append_assoc]

theorem cons (hc : ∀ rest, dual (c :: rest) = d :: dual rest) (hs : IsDual s t) :
    IsDual (c :: s) (d :: t) := by
  intro rest
  rw [List.cons_append, hc, hs, List.cons_append]

theorem dual_eq (hs : IsDual s t) : dual s = t := by
  have h := hs []
  rwa [List.append_nil, show dual [] = [] from rfl, List.append_nil] at h

theorem space (hs : IsDual s t) : IsDual (' ' :: s) (' ' :: t) := cons (fun _ => rfl) hs

theorem operator (op : BinaryOp) (hs : IsDual s t) :
    IsDual ((Operator.binary op).symbol :: s) ((Operator.binary op.dual).symbol :: t) :=
  cons (fun _ => by cases op <;> rfl) hs

theorem group (hs : IsDual s t) : IsDual ('(' :: s ++ [')']) ('(' :: t ++ [')']) :=
  (cons (fun _ => rfl) hs).append (cons (fun _ => rfl) nil)

theorem keyword (value : Bool) : IsDual (keyword value) (keyword !value) := by
  cases value <;> exact fun _ => rfl

theorem named {v : Char} (hv : isVariable v) : IsDual [v] ['¬', v] := by
  intro rest
  rw [List.singleton_append, dual]
  · exact if_pos hv
  -- No variable begins a keyword or a negation.
  all_goals
    intros
    subst_vars
    cases hv

theorem literal {v : Char} (hv : isVariable v) (negated : Bool) :
    IsDual (literal v.toString negated) (literal v.toString !negated) := by
  simp only [NormalForm.literal, Char.toList_toString]
  cases negated with
  | true => exact fun _ => if_pos hv
  | false => exact named hv

variable {α : Type} {xs : List α} {text dualText : α → List Char}

theorem joinWith (op : BinaryOp) (h : ∀ x ∈ xs, IsDual (text x) (dualText x)) :
    IsDual (joinWith op (xs.map text)) (joinWith op.dual (xs.map dualText)) := by
  induction xs with
  | nil => exact nil
  | cons x xs ih =>
    rw [List.forall_mem_cons] at h
    cases xs with
    | nil =>
      simp only [List.map_cons, List.map_nil, joinWith_singleton]
      exact h.1
    | cons y xs =>
      simp only [List.map_cons, joinWith_cons_cons]
      exact h.1.append (space (operator op (space (ih h.2))))

theorem clause (op : BinaryOp) (empty : Bool) (h : ∀ x ∈ xs, IsDual (text x) (dualText x)) :
    IsDual (clause op empty (xs.map text)) (clause op.dual (!empty) (xs.map dualText)) := by
  cases xs with
  | nil => exact keyword empty
  | cons x xs => exact (joinWith op h).group

theorem joinClauses (op : BinaryOp) (empty : Bool)
    (h : ∀ x ∈ xs, IsDual (text x) (dualText x)) :
    IsDual (joinClauses op empty (xs.map text))
      (joinClauses op.dual (!empty) (xs.map dualText)) := by
  cases xs with
  | nil => exact keyword empty
  | cons x xs => exact joinWith op h

end IsDual

variable {r : Row} {t u : TruthTable}

theorem isDual_rowConjunction (h : r.NamesVariables) :
    IsDual (rowConjunction r) (rowDisjunction r) := by
  refine .clause .conjunction true (fun b hb => ?_)
  obtain ⟨v, hv, hname⟩ := h b hb
  simpa only [hname, Bool.not_not] using IsDual.literal hv (!b.2)

theorem isDual_rowDisjunction (h : r.NamesVariables) :
    IsDual (rowDisjunction r) (rowConjunction r) := by
  refine .clause .disjunction false (fun b hb => ?_)
  obtain ⟨v, hv, hname⟩ := h b hb
  simpa only [hname] using IsDual.literal hv b.2

end NormalForm

namespace TruthTable

variable {t u : TruthTable}

theorem satisfying_of_flip (h : u.rows = t.rows.map Row.flip) :
    u.satisfying = t.falsifying.map Row.flip := by
  rw [satisfying, h, List.filter_map]
  rfl

theorem falsifying_of_flip (h : u.rows = t.rows.map Row.flip) :
    u.falsifying = t.satisfying.map Row.flip := by
  simp [falsifying, satisfying, h, List.filter_map, Function.comp_def, Row.flip]

open NormalForm

/-- If the rows of a table are flipped, its normal forms change into the duals of each other. -/
theorem dual_disjunctive_of_flip (ht : ∀ r ∈ t.rows, r.NamesVariables)
    (h : u.rows = t.rows.map Row.flip) : dual (disjunctive u) = conjunctive t := by
  have hrows : ∀ r ∈ t.falsifying, IsDual (rowConjunction r.flip) (rowDisjunction r) :=
    fun r hr => isDual_rowConjunction (ht r (List.mem_filter.mp hr).1)
  rw [disjunctive, satisfying_of_flip h, List.map_map]
  exact (IsDual.joinClauses .disjunction false hrows).dual_eq

theorem dual_conjunctive_of_flip (ht : ∀ r ∈ t.rows, r.NamesVariables)
    (h : u.rows = t.rows.map Row.flip) : dual (conjunctive u) = disjunctive t := by
  have hrows : ∀ r ∈ t.satisfying, IsDual (rowDisjunction r.flip) (rowConjunction r) :=
    fun r hr => isDual_rowDisjunction (ht r (List.mem_filter.mp hr).1)
  rw [conjunctive, falsifying_of_flip h, List.map_map]
  exact (IsDual.joinClauses .conjunction true hrows).dual_eq

/-- The negation of an expression has the table of the expression with every result flipped, and
each normal form of the expression is the dual of the other form of its negation. -/
theorem build_negation_dual (e : String) (limit : Option Int) (t : TruthTable)
    (h : build e limit = .ok t) :
    ∃ u, build ("¬(" ++ e ++ ")") limit = .ok u ∧ u.names = t.names ∧
      u.rows = t.rows.map Row.flip ∧
      t.conjunctiveForm.toList = dual u.disjunctiveForm.toList ∧
      t.disjunctiveForm.toList = dual u.conjunctiveForm.toList := by
  have hlimit := exceeds_of_build h
  have hnames := namesVariables_of_build h
  obtain ⟨φ, hφ, rfl⟩ := exists_phrase_of_build h
  have hvars : variablesOf ("¬(" ++ e ++ ")") = variablesOf e := by
    rw [variablesOf, Expression.freeVariables_negation, variablesOf]
  have hu := build_of_phrase_within (Expression.phrase_negation hφ) (hvars ▸ hlimit)
  have hflip : ((assignments (variablesOf e)).map (rowOf φ)).map Row.flip =
      (assignments (variablesOf ("¬(" ++ e ++ ")"))).map (rowOf φ.negation) := by
    rw [hvars, List.map_map]
    rfl
  refine ⟨_, hu, hvars, hflip.symm, ?_, ?_⟩
  · simp only [conjunctiveForm, disjunctiveForm, String.toList_ofList]
    exact (dual_disjunctive_of_flip hnames hflip.symm).symm
  · simp only [conjunctiveForm, disjunctiveForm, String.toList_ofList]
    exact (dual_conjunctive_of_flip hnames hflip.symm).symm

theorem build_negation_dual_asymmetric :
    build "A ∧ ¬B" (some 2) = .ok ⟨"A ∧ ¬B", ["A", "B"],
        [⟨[("A", false), ("B", false)], false⟩, ⟨[("A", false), ("B", true)], false⟩,
          ⟨[("A", true), ("B", false)], true⟩, ⟨[("A", true), ("B", true)], false⟩]⟩ ∧
      build "¬(A ∧ ¬B)" (some 2) = .ok ⟨"¬(A ∧ ¬B)", ["A", "B"],
        [⟨[("A", false), ("B", false)], true⟩, ⟨[("A", false), ("B", true)], true⟩,
          ⟨[("A", true), ("B", false)], false⟩, ⟨[("A", true), ("B", true)], true⟩]⟩ ∧
      "(A ∨ B) ∧ (A ∨ ¬B) ∧ (¬A ∨ ¬B)".toList =
        dual "(¬A ∧ ¬B) ∨ (¬A ∧ B) ∨ (A ∧ B)".toList ∧
      "(A ∧ ¬B)".toList = dual "(¬A ∨ B)".toList := by
  have ht : build "A ∧ ¬B" (some 2) = .ok ⟨"A ∧ ¬B", ["A", "B"],
      [⟨[("A", false), ("B", false)], false⟩, ⟨[("A", false), ("B", true)], false⟩,
        ⟨[("A", true), ("B", false)], true⟩, ⟨[("A", true), ("B", true)], false⟩]⟩ := by rfl
  have hu : build "¬(A ∧ ¬B)" (some 2) = .ok ⟨"¬(A ∧ ¬B)", ["A", "B"],
      [⟨[("A", false), ("B", false)], true⟩, ⟨[("A", false), ("B", true)], true⟩,
        ⟨[("A", true), ("B", false)], false⟩, ⟨[("A", true), ("B", true)], true⟩]⟩ := by rfl
  obtain ⟨u, hbuild, -, -, hconjunctive, hdisjunctive⟩ := build_negation_dual _ _ _ ht
  obtain rfl := Except.ok.inj (hu.symm.trans hbuild)
  exact ⟨ht, hu, hconjunctive, hdisjunctive⟩

end TruthTable

end Sentential
