import Mathlib.Data.List.Nodup
import Sentential.Proofs.Enumeration

/-!
# Expansion on the first variable

Writing a constant for a variable comes to the same as giving the variable the value of the
constant. The text that results has the other variables. So the table of an expression is made of
the tables of two texts, one for each value of its first variable, and it fails exactly if they do.
-/
namespace Sentential

namespace Expression

def constantSymbol : Bool → Char
  | true => 'T'
  | false => 'F'

theorem constant?_constantSymbol (value : Bool) :
    constant? (constantSymbol value) = some value := by
  cases value <;> rfl

def restrictChar (v : Char) (value : Bool) (c : Char) : Char :=
  if c = v then constantSymbol value else c

/-- The text with the constant of a value wherever it has the variable. -/
def restrict (v : Char) (value : Bool) (e : String) : String :=
  String.ofList (e.toList.map (restrictChar v value))

variable {v : Char} {value : Bool} {a : Assignment} {s : List Char}

/-! ## Values -/

theorem substituteChar_restrictChar (hv : isVariable v) (c : Char) :
    substituteChar a (restrictChar v value c) = substituteChar ((v.toString, value) :: a) c := by
  by_cases hc : c = v
  · obtain rfl := hc
    have hn := (isVariable_iff.mp hv).2
    simp only [substituteChar, restrictChar, ↓reduceIte, constant?_constantSymbol, hn, hv,
      List.lookup_cons_self]
  · have hname : (c.toString == v.toString) = false :=
      beq_false_of_ne fun h => hc (Char.toString_injective h)
    simp only [substituteChar, restrictChar, hc, ↓reduceIte, List.lookup_cons, hname]

theorem substitute_restrictChar (hv : isVariable v) :
    substitute a (s.map (restrictChar v value)) = substitute ((v.toString, value) :: a) s := by
  induction s with
  | nil => rfl
  | cons c s ih => rw [List.map_cons, substitute, substitute, substituteChar_restrictChar hv, ih]

theorem evaluateUnder_restrict (hv : isVariable v) (e : String) :
    evaluateUnder a (restrict v value e).toList =
      evaluateUnder ((v.toString, value) :: a) e.toList := by
  rw [evaluateUnder, evaluateUnder, restrict, String.toList_ofList, substitute_restrictChar hv]

/-! ## Variables -/

theorem mem_freeVariables_restrict (u v : Char) (value : Bool) (e : String) :
    u ∈ freeVariables (restrict v value e).toList ↔ u ≠ v ∧ u ∈ freeVariables e.toList := by
  rw [restrict, String.toList_ofList, mem_freeVariables, mem_freeVariables, List.mem_map]
  constructor
  · rintro ⟨⟨c, hc, rfl⟩, hvar⟩
    by_cases hcv : c = v
    · rw [restrictChar, if_pos hcv, isVariable_iff, constant?_constantSymbol] at hvar
      cases hvar.2
    · rw [restrictChar, if_neg hcv] at hvar ⊢
      exact ⟨hcv, hc, hvar⟩
  · rintro ⟨huv, hu, hvar⟩
    exact ⟨⟨u, hu, if_neg huv⟩, hvar⟩

theorem freeVariables_restrict (v : Char) (value : Bool) (e : String) :
    freeVariables (restrict v value e).toList = (freeVariables e.toList).filter (· ≠ v) := by
  rw [freeVariables, freeVariables, List.filter_filter]
  refine List.filter_congr fun u hu => ?_
  have hmem := mem_freeVariables_restrict u v value e
  simp only [mem_freeVariables, mem_alphabet.mp hu, and_true] at hmem
  simp only [hmem, Bool.decide_and]

end Expression

/-- The row with one more binding in front. -/
def Row.cons (name : String) (value : Bool) (r : Row) : Row :=
  ⟨(name, value) :: r.bindings, r.result⟩

namespace TruthTable

open Expression (freeVariables restrict evaluateUnder)

variable {e : String} {v : Char}

theorem variablesOf_eq_cons (h : (freeVariables e.toList).head? = some v) (value : Bool) :
    variablesOf e = v.toString :: variablesOf (restrict v value e) := by
  obtain ⟨rest, hrest⟩ := List.head?_eq_some_iff.mp h
  have hnodup : (v :: rest).Nodup := by
    have halphabet : Expression.alphabet.Nodup := by decide
    exact hrest ▸ halphabet.filter _
  have hother : rest.filter (· ≠ v) = rest :=
    List.filter_eq_self.mpr fun u hu =>
      decide_eq_true fun huv : u = v => (List.nodup_cons.mp hnodup).1 (huv ▸ hu)
  rw [variablesOf, variablesOf, Expression.freeVariables_restrict, hrest, List.map_cons,
    List.filter_cons_of_neg (by simp), hother]

theorem isVariable_of_head? (h : (freeVariables e.toList).head? = some v) :
    Expression.isVariable v :=
  (Expression.mem_freeVariables.mp (List.mem_of_head? h)).2

theorem exists_build_iff_evaluateUnder {a : Assignment} (ha : a ∈ assignments (variablesOf e)) :
    (∃ t, build e none = .ok t) ↔ ∃ value, evaluateUnder a e.toList = .ok value := by
  constructor
  · rintro ⟨t, ht⟩
    obtain ⟨φ, hφ, -⟩ := exists_phrase_of_build ht
    exact ⟨_, evaluateUnder_of_mem_assignments hφ ha⟩
  · rintro ⟨value, hv⟩
    have hagrees := (covers_of_mem_assignments ha).agrees
    obtain ⟨φ, hφ, -⟩ := (Expression.evaluateUnder_eq_ok_iff hagrees).mp hv
    exact ⟨_, build_of_phrase hφ⟩

theorem cons_mem_assignments (h : (freeVariables e.toList).head? = some v) {value : Bool}
    {a : Assignment} (ha : a ∈ assignments (variablesOf (restrict v value e))) :
    (v.toString, value) :: a ∈ assignments (variablesOf e) := by
  rw [mem_assignments] at ha ⊢
  rw [List.map_cons, ha, variablesOf_eq_cons h value]

theorem exists_build_restrict (h : (freeVariables e.toList).head? = some v) (value : Bool) :
    (∃ t, build e none = .ok t) ↔ ∃ t, build (restrict v value e) none = .ok t := by
  have hfalse := false_mem_assignments (variablesOf (restrict v value e))
  rw [exists_build_iff_evaluateUnder hfalse,
    exists_build_iff_evaluateUnder (cons_mem_assignments h hfalse),
    Expression.evaluateUnder_restrict (isVariable_of_head? h)]

theorem build_eq_error_of_restrict (h : (freeVariables e.toList).head? = some v)
    {error : TableError} (hb : build (restrict v false e) none = .error error) :
    build e none = .error error := by
  have hsame : evaluateUnder ((variablesOf (restrict v false e)).map (·, false))
        (restrict v false e).toList =
      evaluateUnder ((variablesOf e).map (·, false)) e.toList := by
    rw [Expression.evaluateUnder_restrict (isVariable_of_head? h), variablesOf_eq_cons h false,
      List.map_cons]
  rcases build_none_cases e with ⟨x, hx, he⟩ | ⟨t, ht, -⟩
  · rcases build_none_cases (restrict v false e) with ⟨y, hy, hf⟩ | ⟨t, ht, -⟩
    · rw [hsame, hx] at hy
      rw [he, ← hb, hf, Except.error.inj hy]
    · rw [ht] at hb
      cases hb
  · obtain ⟨u, hu⟩ := (exists_build_restrict h false).mp ⟨t, ht⟩
    rw [hu] at hb
    cases hb

theorem build_eq_error_iff_restrict (h : (freeVariables e.toList).head? = some v)
    (error : TableError) :
    build e none = .error error ↔ build (restrict v false e) none = .error error := by
  refine ⟨fun he => ?_, build_eq_error_of_restrict h⟩
  cases hb : build (restrict v false e) none with
  | error x => rw [← he, build_eq_error_of_restrict h hb]
  | ok t =>
    obtain ⟨u, hu⟩ := (exists_build_restrict h false).mpr ⟨t, hb⟩
    rw [hu] at he
    cases he

/-- The rows of a table under one value of its first variable are those of the restricted text. -/
theorem map_rowOf_cons (h : (freeVariables e.toList).head? = some v) {value : Bool}
    {φ ψ : Formula Atom} (hφ : Expression.Phrase .expression e.toList φ)
    (hψ : Expression.Phrase .expression (restrict v value e).toList ψ) :
    ((assignments (variablesOf (restrict v value e))).map ((v.toString, value) :: ·)).map
        (rowOf φ) =
      ((assignments (variablesOf (restrict v value e))).map (rowOf ψ)).map
        (Row.cons v.toString value) := by
  rw [List.map_map, List.map_map]
  refine List.map_congr_left fun a ha => ?_
  have hvalue := evaluateUnder_of_mem_assignments hψ ha
  rw [Expression.evaluateUnder_restrict (isVariable_of_head? h),
    evaluateUnder_of_mem_assignments hφ (cons_mem_assignments h ha)] at hvalue
  exact congrArg (Row.mk _) (Except.ok.inj hvalue)

/-- An expression with variables has a table exactly if the text with F for its first variable has
one, and exactly if the text with T has one. Its error is the error of the text with F. Its table
has the variable and then the variables of the two other tables. In the first half of its rows are
those of the text with F, with the variable false in front, and in the second half those of the text
with T, with the variable true in front. -/
theorem build_expansion (e : String) (v : Char) (h : (freeVariables e.toList).head? = some v) :
    ((∃ t, build e none = .ok t) ↔ ∃ t, build (restrict v false e) none = .ok t) ∧
    ((∃ t, build e none = .ok t) ↔ ∃ t, build (restrict v true e) none = .ok t) ∧
    (∀ error, build e none = .error error ↔ build (restrict v false e) none = .error error) ∧
    ∀ t, build e none = .ok t → ∃ low high, build (restrict v false e) none = .ok low ∧
      build (restrict v true e) none = .ok high ∧
      t.names = v.toString :: low.names ∧ low.names = high.names ∧
      low.rows.length = high.rows.length ∧
      t.rows = low.rows.map (.cons v.toString false) ++ high.rows.map (.cons v.toString true) := by
  refine ⟨exists_build_restrict h false, exists_build_restrict h true,
    build_eq_error_iff_restrict h, fun t ht => ?_⟩
  obtain ⟨low, hlow⟩ := (exists_build_restrict h false).mp ⟨t, ht⟩
  obtain ⟨high, hhigh⟩ := (exists_build_restrict h true).mp ⟨t, ht⟩
  refine ⟨low, high, hlow, hhigh, ?_⟩
  have hnames : variablesOf (restrict v false e) = variablesOf (restrict v true e) :=
    (List.cons.inj ((variablesOf_eq_cons h false).symm.trans (variablesOf_eq_cons h true))).2
  obtain ⟨φ, hφ, rfl⟩ := exists_phrase_of_build ht
  obtain ⟨ψ, hψ, rfl⟩ := exists_phrase_of_build hlow
  obtain ⟨χ, hχ, rfl⟩ := exists_phrase_of_build hhigh
  refine ⟨variablesOf_eq_cons h false, hnames, ?_, ?_⟩
  · rw [List.length_map, List.length_map, hnames]
  · have hfirst := map_rowOf_cons h hφ hψ
    have hsecond := map_rowOf_cons h hφ hχ
    change (assignments (variablesOf e)).map (rowOf φ) = _
    rw [variablesOf_eq_cons h false, assignments, List.map_append, hfirst, hnames, hsecond]

theorem build_expansion_implication :
    (freeVariables "A → B".toList).head? = some 'A' ∧
      ∃ t low high, build "A → B" none = .ok t ∧ build "F → B" none = .ok low ∧
        build "T → B" none = .ok high ∧ t.names = "A" :: low.names ∧
        t.rows = low.rows.map (.cons "A" false) ++ high.rows.map (.cons "A" true) := by
  have h : (freeVariables "A → B".toList).head? = some 'A' := by decide
  have hlow : restrict 'A' false "A → B" = "F → B" := by decide
  have hhigh : restrict 'A' true "A → B" = "T → B" := by decide
  obtain ⟨t, ht⟩ : ∃ t, build "A → B" none = .ok t := ⟨_, rfl⟩
  obtain ⟨-, -, -, hrows⟩ := build_expansion "A → B" 'A' h
  obtain ⟨low, high, hl, hh, hnames, -, -, hr⟩ := hrows t ht
  rw [hlow] at hl
  rw [hhigh] at hh
  exact ⟨h, t, low, high, ht, hl, hh, hnames, hr⟩

end TruthTable

end Sentential
