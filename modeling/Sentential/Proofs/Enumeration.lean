import Mathlib.Data.List.Nodup
import Sentential.Proofs.Uniformity

/-!
# The enumeration of a truth table

The rows of a table count in binary: row i binds the names to the digits of i, the most significant
first. So every way to bind the names has one row. Which rows there are depends on the variables
alone, and so does the check against a limit, which comes before the text is read.
-/
namespace Sentential.TruthTable

open Expression (evaluateUnder)

/-! ## Counting in binary -/

/-- The names bound to the digits of a number, the most significant digit first. -/
def bindingsAt (names : List String) (i : Nat) : Assignment :=
  names.mapIdx fun j name => (name, i.testBit (names.length - 1 - j))

theorem bindingsAt_cons (name : String) (names : List String) (i : Nat) :
    bindingsAt (name :: names) i = (name, i.testBit names.length) :: bindingsAt names i := by
  simp only [bindingsAt, List.mapIdx_cons, List.length_cons, Nat.add_sub_cancel, Nat.sub_zero,
    Nat.sub_sub, Nat.add_comm 1]

/-- A digit in front of the others does not change them. -/
theorem bindingsAt_add {names : List String} {k : Nat} (h : names.length ≤ k) (i : Nat) :
    bindingsAt names (Nat.pow 2 k + i) = bindingsAt names i := by
  induction names with
  | nil => rfl
  | cons name names ih =>
    have hdigit : (Nat.pow 2 k + i).testBit names.length = i.testBit names.length :=
      Nat.testBit_two_pow_add_gt h i
    rw [bindingsAt_cons, bindingsAt_cons, hdigit, ih (Nat.le_of_succ_le h)]

theorem range_two_pow_succ (k : Nat) :
    List.range (Nat.pow 2 (k + 1)) =
      List.range (Nat.pow 2 k) ++ (List.range (Nat.pow 2 k)).map (Nat.pow 2 k + ·) := by
  rw [← List.range_add]
  exact congrArg List.range (Nat.mul_two _)

theorem assignments_eq_map (names : List String) :
    assignments names = (List.range (Nat.pow 2 names.length)).map (bindingsAt names) := by
  induction names with
  | nil => rfl
  | cons name names ih =>
    have hlow : ∀ i ∈ List.range (Nat.pow 2 names.length),
        (name, false) :: bindingsAt names i = bindingsAt (name :: names) i := by
      intro i hi
      rw [bindingsAt_cons, Nat.testBit_lt_two_pow (List.mem_range.mp hi)]
    have hhigh : ∀ i ∈ List.range (Nat.pow 2 names.length),
        (name, true) :: bindingsAt names i =
          bindingsAt (name :: names) (Nat.pow 2 names.length + i) := by
      intro i hi
      have hdigit : (Nat.pow 2 names.length + i).testBit names.length = true := by
        rw [show Nat.pow 2 names.length = 2 ^ names.length from rfl, Nat.testBit_two_pow_add_eq,
          Nat.testBit_lt_two_pow (List.mem_range.mp hi), Bool.not_false]
      rw [bindingsAt_cons, hdigit, bindingsAt_add (Nat.le_refl _)]
    rw [assignments, ih, List.length_cons, range_two_pow_succ, List.map_append, List.map_map,
      List.map_map, List.map_map]
    exact congrArg₂ _ (List.map_congr_left hlow) (List.map_congr_left hhigh)

theorem nodup_assignments (names : List String) : (assignments names).Nodup := by
  induction names with
  | nil => exact List.nodup_singleton []
  | cons name names ih =>
    have hcons (value : Bool) : Function.Injective ((name, value) :: · : Assignment → Assignment) :=
      fun _ _ h => (List.cons.inj h).2
    refine (ih.map (hcons false)).append (ih.map (hcons true)) fun a hfalse htrue => ?_
    obtain ⟨b, -, rfl⟩ := List.mem_map.mp hfalse
    obtain ⟨c, -, hc⟩ := List.mem_map.mp htrue
    cases hc

/-! ## Variables -/

theorem pairwise_variablesOf (e : String) : (variablesOf e).Pairwise (· < ·) := by
  have halphabet : (Expression.alphabet.map Char.toString).Pairwise (· < ·) := by decide
  exact halphabet.sublist (List.filter_sublist.map Char.toString)

theorem mem_variablesOf {e name : String} :
    name ∈ variablesOf e ↔ ∃ v ∈ e.toList, Expression.isVariable v ∧ v.toString = name := by
  simp only [variablesOf, List.mem_map, Expression.mem_freeVariables, and_assoc]

/-! ## The outcome of a table -/

/-- The table has the variables of the expression and a row for each number below the power of two.
The row binds them to the digits of the number, and its result is the value of the expression. -/
structure Enumerates (e : String) (t : TruthTable) : Prop where
  expression : t.expression = e
  names : t.names = variablesOf e
  length : t.rows.length = Nat.pow 2 t.names.length
  bindings : ∀ i (h : i < t.rows.length),
    t.rows[i].bindings = t.names.mapIdx fun j name => (name, i.testBit (t.names.length - 1 - j))
  result : ∀ r ∈ t.rows, evaluateUnder r.bindings e.toList = .ok r.result
  once : ∀ a : Assignment, a.map Prod.fst = t.names → (t.rows.map Row.bindings).count a = 1

variable {e : String} {limit : Option Int} {t : TruthTable}

theorem enumerates_of_build (h : build e limit = .ok t) : Enumerates e t := by
  obtain ⟨φ, hφ, rfl⟩ := exists_phrase_of_build h
  have hbindings : ((assignments (variablesOf e)).map (rowOf φ)).map Row.bindings =
      assignments (variablesOf e) := by
    rw [List.map_map]
    exact List.map_id _
  refine ⟨rfl, rfl, ?_, fun i hi => ?_, fun r hr => ?_, fun a ha => ?_⟩
  · rw [List.length_map, length_assignments]
  · simp only [assignments_eq_map, List.getElem_map, List.getElem_range]
    rfl
  · obtain ⟨a, ha, rfl⟩ := List.mem_map.mp hr
    exact evaluateUnder_of_mem_assignments hφ ha
  · rw [hbindings]
    exact List.count_eq_one_of_mem (nodup_assignments _) (mem_assignments.mpr ha)

theorem build_none_cases (e : String) :
    (∃ error, evaluateUnder ((variablesOf e).map (·, false)) e.toList = .error error ∧
      build e none = .error (.evaluation error)) ∨
      ∃ t, build e none = .ok t ∧ Enumerates e t := by
  rcases build_cases e with ⟨first, rest, error, hrows, hfirst, hb⟩ | ⟨t, hb, -⟩
  · obtain ⟨rest', hfalse⟩ := assignments_eq_cons (variablesOf e)
    rw [hrows] at hfalse
    rw [(List.cons.inj hfalse).1] at hfirst
    exact .inl ⟨_, hfirst, hb⟩
  · exact .inr ⟨t, hb, enumerates_of_build hb⟩

theorem exists_malformed_of_build_none {error : TableError} (h : build e none = .error error) :
    ∃ e', error = .evaluation (.malformed e') := by
  rcases build_ok_or_malformed e with ⟨t, ht⟩ | ⟨e', he⟩
  · rw [h] at ht
    cases ht
  · rw [h] at he
    exact ⟨e', Except.error.inj he⟩

theorem build_none_ne_excess (e : String) (excess : VariableExcess) :
    build e none ≠ .error (.excess excess) := by
  intro h
  obtain ⟨e', he⟩ := exists_malformed_of_build_none h
  cases he

theorem build_eq_excess_iff {excess : VariableExcess} :
    build e limit = .error (.excess excess) ↔
      ∃ bound, limit = some bound ∧ bound < (variablesOf e).length ∧
        excess = ⟨variablesOf e, bound⟩ := by
  constructor
  · intro h
    cases limit with
    | none => exact absurd h (build_none_ne_excess e excess)
    | some bound =>
      by_cases hlt : bound < (variablesOf e).length
      · rw [build_eq_excess hlt] at h
        exact ⟨bound, rfl, hlt, (TableError.excess.inj (Except.error.inj h)).symm⟩
      · rw [build_eq_unlimited hlt] at h
        exact absurd h (build_none_ne_excess e excess)
  · rintro ⟨bound, rfl, hlt, rfl⟩
    exact build_eq_excess hlt

theorem build_eq_build_none
    (h : ∀ bound, limit = some bound → ¬bound < (variablesOf e).length) :
    build e limit = build e none := by
  cases limit with
  | none => rfl
  | some bound => exact build_eq_unlimited (h bound rfl)

theorem build_ne_unassigned (e : String) (limit : Option Int) (v : Char) :
    build e limit ≠ .error (.evaluation (.unassigned v)) := by
  intro h
  have hlimit : build e limit = build e none := by
    refine build_eq_build_none fun bound hb hlt => ?_
    rw [hb, build_eq_excess hlt] at h
    cases h
  rw [hlimit] at h
  obtain ⟨e', he⟩ := exists_malformed_of_build_none h
  cases he

/-- A table is refused for its variables exactly if there are more than the limit allows, whatever
else the text holds, and otherwise the limit does not matter. Then it fails as the evaluation with
all variables false does, or it enumerates all rows. That a variable has no value never happens. -/
theorem build_outcome (e : String) (limit : Option Int) :
    (variablesOf e).Pairwise (· < ·) ∧
    (∀ name, name ∈ variablesOf e ↔
      ∃ v ∈ e.toList, Expression.isVariable v ∧ v.toString = name) ∧
    (∀ excess, build e limit = .error (.excess excess) ↔
      ∃ bound, limit = some bound ∧ bound < (variablesOf e).length ∧
        excess = ⟨variablesOf e, bound⟩) ∧
    ((∀ bound, limit = some bound → ¬bound < (variablesOf e).length) →
      build e limit = build e none) ∧
    ((∃ error, evaluateUnder ((variablesOf e).map (·, false)) e.toList = .error error ∧
        build e none = .error (.evaluation error)) ∨
      ∃ t, build e none = .ok t ∧ Enumerates e t) ∧
    ∀ v, build e limit ≠ .error (.evaluation (.unassigned v)) :=
  ⟨pairwise_variablesOf e, fun _ => mem_variablesOf, fun _ => build_eq_excess_iff,
    build_eq_build_none, build_none_cases e, build_ne_unassigned e limit⟩

end Sentential.TruthTable
