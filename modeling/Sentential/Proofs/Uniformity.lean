import Sentential.Proofs.TruthTable

/-!
# Well-formedness does not depend on values

An open text is read once for all values of its variables: either as one open formula, of which
every closed text gives an instance, or not at all, with one fault at one place, which every closed
text shows where that place lands. So of all assignments that cover a text none fails unless all do,
and a table fails on its first row or not at all.
-/
namespace Sentential

/-- Two errors of one class and kind. -/
inductive SyntaxError.Alike : SyntaxError → SyntaxError → Prop where
  | lexical {a b : LexicalError} : a.code = b.code → Alike (.lexical a) (.lexical b)
  | grammatical {a b : GrammarError Bool} : a.code = b.code →
      Alike (.grammatical a) (.grammatical b)

theorem SyntaxError.Alike.code_eq {x y : SyntaxError} (h : x.Alike y) : x.code = y.code := by
  cases h with
  | lexical h => exact h
  | grammatical h => exact h

namespace LexicalError

variable (spell : List Char → List Char) (move : Nat → Nat)

theorem code_map (e : LexicalError) : (e.map spell move).code = e.code := by cases e <;> rfl

theorem position_map (e : LexicalError) : (e.map spell move).position = move e.position := by
  cases e <;> rfl

end LexicalError

namespace GrammarError

variable {α β : Type} (f : α → β) (move : Nat → Nat)

theorem code_map (e : GrammarError α) : (e.map f move).code = e.code := by cases e <;> rfl

theorem position?_map (e : GrammarError α) : (e.map f move).position? = e.position?.map move := by
  cases e <;> rfl

end GrammarError

namespace Expression

/-! ## One reading for all values -/

/-- A text is an open expression, or it has one fault at one place under all values. -/
theorem parse_expand_cases (s : List Char) :
    (∃ φ, Phrase .expression s φ ∧ ∀ ν, parse (expand ν s) = .ok (φ.map (Atom.value ν))) ∨
      ∃ (fault : (String → Bool) → SyntaxError) (place : Option Nat), ∀ ν,
        parse (expand ν s) = .error (fault ν) ∧ (∀ ν', (fault ν).Alike (fault ν')) ∧
          (fault ν).position? = place.map (expandedOffset ν s) := by
  cases hl : Token.lexWith .atoms s with
  | error e =>
    refine .inr ⟨fun ν => .lexical (e.map (expand ν) (expandedOffset ν s)), some e.position, ?_⟩
    intro ν
    refine ⟨by simp only [parse_expand, hl], fun ν' => .lexical ?_, ?_⟩
    · rw [LexicalError.code_map, LexicalError.code_map]
    · rw [SyntaxError.position?, LexicalError.position_map, Option.map_some]
  | ok tokens =>
    cases hp : Parser.parse tokens with
    | error failure =>
      refine .inr ⟨fun ν => .grammatical (failure.error.map (Atom.value ν) (expandedOffset ν s)),
        failure.error.position?, ?_⟩
      intro ν
      refine ⟨by simp only [parse_expand, hl, hp], fun ν' => .grammatical ?_, ?_⟩
      · rw [GrammarError.code_map, GrammarError.code_map]
      · rw [SyntaxError.position?, GrammarError.position?_map]
    | ok φ =>
      refine .inl ⟨φ, phrase_expression_iff.mpr ⟨tokens, hl, hp⟩, fun ν => ?_⟩
      simp only [parse_expand, hl, hp]

theorem expandedOffset_min (ν : String → Bool) (s : List Char) (p : Nat) :
    expandedOffset ν s (min p s.length) = expandedOffset ν s p := by
  rw [expandedOffset, expandedOffset, ← List.take_eq_take_min]

end Expression

theorem Assignment.Agrees.take {σ : Assignment} {ν : String → Bool} {s : List Char}
    (h : σ.Agrees ν s) (p : Nat) : σ.Agrees ν (s.take p) := by
  intro v hv
  obtain ⟨hmem, hvar⟩ := Expression.mem_freeVariables.mp hv
  exact h v (Expression.mem_freeVariables.mpr ⟨List.mem_of_mem_take hmem, hvar⟩)

/-- Two errors at the end of the input, or each where one beginning of the text ends under its own
assignment. -/
def SamePlace (σ τ : Assignment) (s : List Char) (x y : SyntaxError) : Prop :=
  x.position? = none ∧ y.position? = none ∨
    ∃ p ≤ s.length, ∃ a b, Expression.substitute σ (s.take p) = .ok a ∧
      Expression.substitute τ (s.take p) = .ok b ∧
        x.position? = some a.length ∧ y.position? = some b.length

theorem samePlace_of_position? {σ τ : Assignment} {s : List Char} {x y : SyntaxError}
    {place : Option Nat} (hσ : σ.Covers s) (hτ : τ.Covers s)
    (hx : x.position? = place.map (Expression.expandedOffset σ.valuation s))
    (hy : y.position? = place.map (Expression.expandedOffset τ.valuation s)) :
    SamePlace σ τ s x y := by
  cases place with
  | none => exact .inl ⟨hx, hy⟩
  | some p =>
    refine .inr ⟨min p s.length, Nat.min_le_right p s.length, _, _,
      Expression.substitute_eq (hσ.agrees.take _), Expression.substitute_eq (hτ.agrees.take _),
      ?_, ?_⟩
    · rw [hx, Option.map_some, ← Expression.expandedOffset_min]
      rfl
    · rw [hy, Option.map_some, ← Expression.expandedOffset_min]
      rfl

namespace TruthTable

theorem tabulate_eq_error {s : List Char} {first : Assignment} {error : EvaluationError}
    (h : Expression.evaluateUnder first s = .error error) (rest : List Assignment) :
    tabulate s (first :: rest) = .error error := by
  rw [tabulate, h]

/-- The first row binds every name to false. -/
theorem assignments_eq_cons (names : List String) :
    ∃ rest, assignments names = names.map (·, false) :: rest := by
  induction names with
  | nil => exact ⟨[], rfl⟩
  | cons name names ih =>
    obtain ⟨rest, hrest⟩ := ih
    rw [assignments, hrest]
    exact ⟨_, rfl⟩

theorem valuation_false (names : List String) (name : String) :
    Assignment.valuation (names.map (·, false)) name = false := by
  induction names with
  | nil => rfl
  | cons first names ih =>
    rw [Assignment.valuation, List.map_cons, List.lookup_cons]
    split
    · rfl
    · exact ih

theorem agrees_false (e : String) :
    Assignment.Agrees ((variablesOf e).map (·, false)) (fun _ => false) e.toList := by
  have hcovers := covers_of_mem_assignments (false_mem_assignments (variablesOf e))
  intro v hv
  rw [hcovers.agrees v hv, valuation_false]

theorem evaluateUnder_false {e : String} {error : SyntaxError}
    (h : Expression.parse (Expression.expand (fun _ => false) e.toList) = .error error) :
    Expression.evaluateUnder ((variablesOf e).map (·, false)) e.toList =
      .error (.malformed error) := by
  rw [Expression.evaluateUnder_eq (agrees_false e), Expression.evaluate, h]
  rfl

theorem build_eq_error {e : String} {limit : Option Int} {error : SyntaxError}
    (hl : exceeds (variablesOf e).length limit = none)
    (h : Expression.parse (Expression.expand (fun _ => false) e.toList) = .error error) :
    build e limit = .error (.evaluation (.malformed error)) := by
  obtain ⟨rest, hrows⟩ := assignments_eq_cons (variablesOf e)
  simp only [build, hl, hrows, tabulate_eq_error (evaluateUnder_false h)]

/-- A table fails on its first row, or all its rows have values. -/
theorem build_cases (e : String) :
    (∃ first rest error, assignments (variablesOf e) = first :: rest ∧
      Expression.evaluateUnder first e.toList = .error (.malformed error) ∧
        build e none = .error (.evaluation (.malformed error))) ∨
      ∃ t, build e none = .ok t ∧ t.rows.length = Nat.pow 2 (variablesOf e).length ∧
        ∀ a ∈ assignments (variablesOf e), ∃ value,
          Expression.evaluateUnder a e.toList = .ok value := by
  rcases Expression.parse_expand_cases e.toList with ⟨φ, hφ, -⟩ | ⟨fault, place, hfault⟩
  · refine .inr ⟨_, build_of_phrase hφ, ?_, ?_⟩
    · rw [List.length_map, length_assignments]
    · exact fun a ha => ⟨_, evaluateUnder_of_mem_assignments hφ ha⟩
  · obtain ⟨rest, hrows⟩ := assignments_eq_cons (variablesOf e)
    have hparse := (hfault fun _ => false).1
    exact .inl ⟨_, rest, _, hrows, evaluateUnder_false hparse, build_eq_error rfl hparse⟩

theorem build_ok_or_malformed (e : String) :
    (∃ t, build e none = .ok t) ∨
      ∃ error, build e none = .error (.evaluation (.malformed error)) := by
  rcases build_cases e with ⟨-, -, error, -, -, hb⟩ | ⟨t, hb, -⟩
  · exact .inr ⟨error, hb⟩
  · exact .inl ⟨t, hb⟩

/-- A table within the limit is the table without one, and so is an error of the text. -/
theorem build_within_cases (e : String) (limit : Int) :
    (∃ t, build e (some limit) = .ok t ∧ build e none = .ok t) ∨
      (∃ error, build e (some limit) = .error (.evaluation (.malformed error)) ∧
        build e none = .error (.evaluation (.malformed error))) ∨
      build e (some limit) = .error (.excess ⟨variablesOf e, limit⟩) := by
  by_cases h : limit < (variablesOf e).length
  · exact .inr (.inr (build_eq_excess h))
  · rw [build_eq_unlimited h]
    rcases build_ok_or_malformed e with ⟨t, hb⟩ | ⟨error, hb⟩
    · exact .inl ⟨t, hb, hb⟩
    · exact .inr (.inl ⟨error, hb, hb⟩)

theorem exists_build_error_of_not_phrase {e : String}
    (h : ¬∃ φ, Expression.Phrase .expression e.toList φ) :
    ∃ error, build e none = .error (.evaluation (.malformed error)) := by
  rcases build_cases e with ⟨first, rest, error, -, -, hb⟩ | ⟨t, hb, -⟩
  · exact ⟨error, hb⟩
  · obtain ⟨φ, hφ, -⟩ := exists_phrase_of_build hb
    exact absurd ⟨φ, hφ⟩ h

end TruthTable

namespace Expression

/-- Two assignments of all free variables evaluate a text both or neither. Either the closed texts
are instances of one open formula, or they have like errors at like places. So a table fails on its
first row or not at all. -/
theorem evaluateUnder_uniform (e : String) (σ τ : Assignment) (hσ : σ.Covers e.toList)
    (hτ : τ.Covers e.toList) :
    ((∃ value, evaluateUnder σ e.toList = .ok value) ↔
      ∃ value, evaluateUnder τ e.toList = .ok value) ∧
    (∀ value, evaluateUnder σ e.toList = .ok value →
      ∃ φ a b, Phrase .expression e.toList φ ∧
        (∀ v, .named v ∈ φ.operands → v ∈ freeVariables e.toList) ∧
        substitute σ e.toList = .ok a ∧ parse a = .ok (φ.map (Atom.value σ.valuation)) ∧
        substitute τ e.toList = .ok b ∧ parse b = .ok (φ.map (Atom.value τ.valuation))) ∧
    (∀ error, evaluateUnder σ e.toList = .error error →
      ∃ x y, error = .malformed x ∧ evaluateUnder τ e.toList = .error (.malformed y) ∧
        x.Alike y ∧ SamePlace σ τ e.toList x y) ∧
    ((∃ first rest error, TruthTable.assignments (TruthTable.variablesOf e) = first :: rest ∧
        evaluateUnder first e.toList = .error (.malformed error) ∧
          TruthTable.build e none = .error (.evaluation (.malformed error))) ∨
      ∃ t, TruthTable.build e none = .ok t ∧
        t.rows.length = Nat.pow 2 (TruthTable.variablesOf e).length ∧
          ∀ a ∈ TruthTable.assignments (TruthTable.variablesOf e), ∃ value,
            evaluateUnder a e.toList = .ok value) := by
  have hl := evaluateUnder_eq hσ.agrees
  have hr := evaluateUnder_eq hτ.agrees
  have ha := substitute_eq hσ.agrees
  have hb := substitute_eq hτ.agrees
  rcases parse_expand_cases e.toList with ⟨φ, hphrase, hφ⟩ | ⟨fault, place, hfault⟩
  · rw [evaluate, hφ] at hl hr
    refine ⟨⟨fun _ => ⟨_, hr⟩, fun _ => ⟨_, hl⟩⟩, fun _ _ => ?_, fun error he => ?_,
      TruthTable.build_cases e⟩
    · exact ⟨φ, _, _, hphrase, fun v => mem_freeVariables_of_phrase hphrase, ha, hφ _, hb, hφ _⟩
    · rw [hl] at he
      cases he
  · obtain ⟨hleft, halike, hx⟩ := hfault σ.valuation
    obtain ⟨hright, -, hy⟩ := hfault τ.valuation
    rw [evaluate, hleft] at hl
    rw [evaluate, hright] at hr
    have absurd_value {ρ : Assignment} {x : SyntaxError} {value : Bool} {P : Prop}
        (h : evaluateUnder ρ e.toList = .error (.malformed x))
        (hv : evaluateUnder ρ e.toList = .ok value) : P := by
      rw [h] at hv
      cases hv
    refine ⟨⟨?_, ?_⟩, fun _ hv => absurd_value hl hv, fun error he => ?_, TruthTable.build_cases e⟩
    · rintro ⟨_, hv⟩
      exact absurd_value hl hv
    · rintro ⟨_, hv⟩
      exact absurd_value hr hv
    · rw [hl] at he
      obtain rfl := Except.error.inj he
      exact ⟨_, _, rfl, hr, halike _, samePlace_of_position? hσ hτ hx hy⟩

theorem evaluateUnder_uniform_strayOperand :
    Assignment.Covers [("A", true), ("B", true)] "¬A B".toList ∧
      Assignment.Covers [("B", false), ("A", false)] "¬A B".toList ∧
      evaluateUnder [("A", true), ("B", true)] "¬A B".toList =
        .error (.malformed (.grammatical (.unexpected ⟨.operand true, 6⟩))) ∧
      ∃ y, evaluateUnder [("B", false), ("A", false)] "¬A B".toList = .error (.malformed y) ∧
        (SyntaxError.grammatical (.unexpected ⟨.operand true, 6⟩)).Alike y ∧
        SamePlace [("A", true), ("B", true)] [("B", false), ("A", false)] "¬A B".toList
          (.grammatical (.unexpected ⟨.operand true, 6⟩)) y := by
  have hσ : Assignment.Covers [("A", true), ("B", true)] "¬A B".toList := by decide
  have hτ : Assignment.Covers [("B", false), ("A", false)] "¬A B".toList := by decide
  have he : evaluateUnder [("A", true), ("B", true)] "¬A B".toList =
      .error (.malformed (.grammatical (.unexpected ⟨.operand true, 6⟩))) := by rfl
  obtain ⟨-, -, herror, -⟩ := evaluateUnder_uniform "¬A B" _ _ hσ hτ
  obtain ⟨x, y, hx, hy, halike, hplace⟩ := herror _ he
  obtain rfl := EvaluationError.malformed.inj hx
  exact ⟨hσ, hτ, he, y, hy, halike, hplace⟩

end Expression

end Sentential
