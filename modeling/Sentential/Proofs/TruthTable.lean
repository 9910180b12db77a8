import Mathlib.Data.List.Nodup
import Sentential.Proofs.Substitution
import Sentential.TruthTable

/-!
# The rows of a truth table

The assignments of a table are all the ways to bind its names, in the order of the names. They cover
the expression, so that a text with a table is an open expression, and each row binds the names as
they come and gives the value of the open formula.
-/
namespace Sentential

theorem Formula.map_congr {α β : Type} {f g : α → β} {φ : Formula α}
    (h : ∀ a ∈ φ.operands, f a = g a) : φ.map f = φ.map g := by
  induction φ with
  | operand a => rw [map, map, h a List.mem_cons_self]
  | negation body ih => rw [map, map, ih h]
  | binary op lhs rhs ihl ihr =>
    simp only [operands, List.forall_mem_append] at h
    rw [map, map, ihl h.1, ihr h.2]

theorem Char.toList_toString (c : Char) : c.toString.toList = [c] := String.toList_singleton c

theorem Char.toString_injective : Function.Injective Char.toString := by
  intro c d h
  have hl := congrArg String.toList h
  rw [toList_toString, toList_toString] at hl
  exact (List.cons.inj hl).1

namespace Assignment

theorem foldl_put (entries : Assignment) {pairs : Assignment}
    (h : ((entries ++ pairs).map Prod.fst).Nodup) :
    pairs.foldl collapse.put entries = entries ++ pairs := by
  induction pairs generalizing entries with
  | nil => rw [List.foldl_nil, List.append_nil]
  | cons pair pairs ih =>
    have hnew : entries.any (·.1 == pair.1) = false := by
      rw [List.map_append, List.map_cons, List.nodup_middle, List.nodup_cons, List.mem_append,
        not_or] at h
      rw [List.any_eq_false]
      intro entry he heq
      exact h.1.1 (List.mem_map.mpr ⟨entry, he, eq_of_beq heq⟩)
    rw [List.append_cons] at h ⊢
    rw [List.foldl_cons, collapse.put, if_neg (by simp [hnew]), ih _ h]

theorem collapse_eq {a : Assignment} (h : (a.map Prod.fst).Nodup) : collapse a = a :=
  foldl_put [] h

theorem valuation_eq {a : Assignment} {entry : String × Bool} (h : (a.map Prod.fst).Nodup)
    (hentry : entry ∈ a) : a.valuation entry.1 = entry.2 := by
  have hl : a.lookup entry.1 = some entry.2 := by
    induction a with
    | nil => cases hentry
    | cons first rest ih =>
      rw [List.map_cons, List.nodup_cons] at h
      rcases List.mem_cons.mp hentry with rfl | hrest
      · exact List.lookup_cons_self
      · have hne : entry.1 ≠ first.1 := fun he => h.1 (he ▸ List.mem_map_of_mem hrest)
        rw [List.lookup_cons, beq_false_of_ne hne]
        exact ih h.2 hrest
  rw [valuation, hl, Option.getD_some]

end Assignment

namespace TruthTable

theorem mem_assignments {names : List String} {a : Assignment} :
    a ∈ assignments names ↔ a.map Prod.fst = names := by
  induction names generalizing a with
  | nil => simp [assignments]
  | cons name names ih =>
    simp only [assignments, List.mem_append, List.mem_map, ih]
    constructor
    · rintro (⟨rest, rfl, rfl⟩ | ⟨rest, rfl, rfl⟩) <;> rfl
    · intro h
      obtain ⟨⟨_, value⟩, rest, rfl, rfl, hr⟩ := List.map_eq_cons_iff.mp h
      cases value
      · exact .inl ⟨rest, hr, rfl⟩
      · exact .inr ⟨rest, hr, rfl⟩

theorem nodup_variablesOf (e : String) : (variablesOf e).Nodup := by
  have ha : Expression.alphabet.Nodup := by decide
  exact (ha.filter _).map Char.toString_injective

theorem covers_of_mem_assignments {e : String} {a : Assignment}
    (h : a ∈ assignments (variablesOf e)) : a.Covers e.toList := by
  intro v hv
  have hname : v.toString ∈ a.map Prod.fst := by
    rw [mem_assignments.mp h]
    exact List.mem_map_of_mem hv
  obtain ⟨entry, hentry, he⟩ := List.mem_map.mp hname
  exact List.lookup_isSome_iff.mpr ⟨entry, hentry, by simp [he]⟩

theorem tabulate_eq {s : List Char} {as : List Assignment} {value : Assignment → Bool}
    (h : ∀ a ∈ as, Expression.evaluateUnder a s = .ok (value a)) :
    tabulate s as = .ok (as.map fun a => Row.ofAssignment a (value a)) := by
  induction as with
  | nil => rfl
  | cons a as ih =>
    simp only [List.forall_mem_cons] at h
    rw [tabulate, h.1, ih h.2]
    rfl

theorem exists_value_of_tabulate {s : List Char} {as : List Assignment} {rows : List Row}
    {a : Assignment} (h : tabulate s as = .ok rows) (ha : a ∈ as) :
    ∃ value, Expression.evaluateUnder a s = .ok value := by
  induction as generalizing rows with
  | nil => cases ha
  | cons first rest ih =>
    rw [tabulate] at h
    split at h
    · cases h
    · next value hv =>
      split at h
      · cases h
      · next more hm =>
        rcases List.mem_cons.mp ha with rfl | ha
        · exact ⟨value, hv⟩
        · exact ih hm ha

def rowOf (φ : Formula Atom) (a : Assignment) : Row :=
  ⟨a, (φ.map (Atom.value a.valuation)).eval⟩

theorem false_mem_assignments (names : List String) :
    names.map (·, false) ∈ assignments names := by
  rw [mem_assignments, List.map_map]
  exact List.map_id _

theorem evaluateUnder_of_mem_assignments {e : String} {φ : Formula Atom} {a : Assignment}
    (h : Expression.Phrase .expression e.toList φ) (ha : a ∈ assignments (variablesOf e)) :
    Expression.evaluateUnder a e.toList = .ok (rowOf φ a).result :=
  (Expression.evaluateUnder_eq_ok_iff (covers_of_mem_assignments ha).agrees).mpr ⟨φ, h, rfl⟩

theorem tabulate_of_phrase {e : String} {φ : Formula Atom}
    (h : Expression.Phrase .expression e.toList φ) :
    tabulate e.toList (assignments (variablesOf e)) =
      .ok ((assignments (variablesOf e)).map (rowOf φ)) := by
  rw [tabulate_eq fun a => evaluateUnder_of_mem_assignments h]
  refine congrArg Except.ok (List.map_congr_left fun a ha => ?_)
  have hnodup : (a.map Prod.fst).Nodup := mem_assignments.mp ha ▸ nodup_variablesOf e
  rw [Row.ofAssignment, Assignment.collapse_eq hnodup]
  rfl

/-- A table has the rows of an open formula that the text stands for. -/
theorem exists_phrase_of_build {e : String} {limit : Option Int} {t : TruthTable}
    (h : build e limit = .ok t) :
    ∃ φ, Expression.Phrase .expression e.toList φ ∧
      t = ⟨e, variablesOf e, (assignments (variablesOf e)).map (rowOf φ)⟩ := by
  unfold build at h
  dsimp only at h
  split at h
  · cases h
  · split at h
    · cases h
    · next rows hrows =>
      obtain rfl := Except.ok.inj h
      have hfalse := false_mem_assignments (variablesOf e)
      obtain ⟨value, hv⟩ := exists_value_of_tabulate hrows hfalse
      obtain ⟨φ, hφ, -⟩ :=
        (Expression.evaluateUnder_eq_ok_iff (covers_of_mem_assignments hfalse).agrees).mp hv
      rw [tabulate_of_phrase hφ] at hrows
      exact ⟨φ, hφ, by rw [Except.ok.inj hrows]⟩

theorem expression_of_build {e : String} {limit : Option Int} {t : TruthTable}
    (h : build e limit = .ok t) : t.expression = e := by
  obtain ⟨φ, -, rfl⟩ := exists_phrase_of_build h
  rfl

theorem assignment_of_build {e : String} {limit : Option Int} {t : TruthTable}
    (h : build e limit = .ok t) :
    ∀ row ∈ t.rows, row.assignment = row.bindings := by
  obtain ⟨φ, -, rfl⟩ := exists_phrase_of_build h
  intro row hrow
  obtain ⟨a, ha, rfl⟩ := List.mem_map.mp hrow
  exact Assignment.collapse_eq (mem_assignments.mp ha ▸ nodup_variablesOf e)

theorem exceeds_of_build {e : String} {limit : Option Int} {t : TruthTable}
    (h : build e limit = .ok t) : exceeds (variablesOf e).length limit = none := by
  cases hl : exceeds (variablesOf e).length limit with
  | none => rfl
  | some bound => simp [build, hl] at h

theorem build_of_phrase_within {e : String} {limit : Option Int} {φ : Formula Atom}
    (h : Expression.Phrase .expression e.toList φ)
    (hl : exceeds (variablesOf e).length limit = none) :
    build e limit = .ok ⟨e, variablesOf e, (assignments (variablesOf e)).map (rowOf φ)⟩ := by
  simp only [build, hl, tabulate_of_phrase h]

theorem build_of_phrase {e : String} {φ : Formula Atom}
    (h : Expression.Phrase .expression e.toList φ) :
    build e none = .ok ⟨e, variablesOf e, (assignments (variablesOf e)).map (rowOf φ)⟩ :=
  build_of_phrase_within h rfl

theorem build_eq_excess {e : String} {limit : Int} (h : limit < (variablesOf e).length) :
    build e (some limit) = .error (.excess ⟨variablesOf e, limit⟩) := by
  simp only [build, exceeds, h, ↓reduceIte]

theorem build_eq_unlimited {e : String} {limit : Int} (h : ¬limit < (variablesOf e).length) :
    build e (some limit) = build e none := by
  simp only [build, exceeds, h, ↓reduceIte]

end TruthTable

end Sentential
