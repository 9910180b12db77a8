import Sentential.CommandLine
import Sentential.Proofs.Uniformity
import Sentential.Script
import Sentential.Session

/-!
# Closed expressions

A text without free variables has a table of one row. The command line, a session and a script do
not build that table: they evaluate the text as it stands. The value, or the error, is the same as
long as the text does without the constants T and F. With a constant in it the text still has a
table, but none of the three can lex it.
-/
namespace Sentential

namespace Expression

variable {s : List Char}

/-- A text with a constant cannot be lexed before the constant is replaced. -/
theorem exists_lex_error_of_constant {c : Char} (hc : c ∈ s) (h : (constant? c).isSome) :
    ∃ e, Token.lex s = .error e := by
  have hrefused : isLowerLetter c = false ∧
      ∀ place, Token.readSymbol (α := Bool) place c = .error (.unknownCharacter c place) := by
    unfold constant? at h
    split at h
    · exact ⟨by decide, fun _ => rfl⟩
    · exact ⟨by decide, fun _ => rfl⟩
    · cases h
  cases hl : Token.lex s with
  | error e => exact ⟨e, rfl⟩
  | ok tokens =>
    obtain ⟨place, lexeme, hr⟩ := Token.readSymbol_of_lexWith hl hc hrefused.1
    rw [hrefused.2 place] at hr
    cases hr

theorem exists_evaluate_error_of_constant {c : Char} (hc : c ∈ s) (h : (constant? c).isSome) :
    ∃ e, evaluate s = .error (.lexical e) := by
  obtain ⟨e, he⟩ := exists_lex_error_of_constant hc h
  refine ⟨e, ?_⟩
  rw [evaluate, parse, he]
  rfl

theorem not_isCapital_of_closed (h : freeVariables s = []) (hs : ∀ c ∈ s, constant? c = none) :
    ∀ c ∈ s, isCapital c = false := by
  intro c hc
  rw [← Bool.not_eq_true]
  intro hcap
  have hv : c ∈ freeVariables s := mem_freeVariables.mpr ⟨hc, isVariable_iff.mpr ⟨hcap, hs c hc⟩⟩
  rw [h] at hv
  cases hv

theorem evaluateUnder_closed (h : freeVariables s = []) (hs : ∀ c ∈ s, constant? c = none)
    (σ : Assignment) : evaluateUnder σ s = (evaluate s).mapError .malformed := by
  have hσ : σ.Agrees σ.valuation s := by
    intro v hv
    rw [h] at hv
    cases hv
  rw [evaluateUnder_eq hσ, expand_of_not_isCapital (not_isCapital_of_closed h hs)]

end Expression

namespace TruthTable

variable {e : String}

theorem variablesOf_closed (h : Expression.freeVariables e.toList = []) : variablesOf e = [] := by
  rw [variablesOf, h, List.map_nil]

theorem build_closed_of_ok {value : Bool} (h : Expression.freeVariables e.toList = [])
    (he : Expression.evaluateUnder [] e.toList = .ok value) :
    build e none = .ok ⟨e, [], [⟨[], value⟩]⟩ := by
  simp only [build, exceeds, variablesOf_closed h, assignments, tabulate, he]
  rfl

theorem build_closed_of_error {error : EvaluationError}
    (h : Expression.freeVariables e.toList = [])
    (he : Expression.evaluateUnder [] e.toList = .error error) :
    build e none = .error (.evaluation error) := by
  simp only [build, exceeds, variablesOf_closed h, assignments, tabulate_eq_error he]

end TruthTable

/-! ## The front ends -/

/-- The command line, a session and a line of a script each print the truth value for a plain
expression. -/
structure PrintedEverywhere (e : String) (value : Bool) : Prop where
  commandLine (settings : Settings) : CommandLine.perform settings (.evaluate e) =
    .ok { output := [String.ofList (keyword value)] }
  session : Session.Command.ofWord? (Session.firstWord e.toList) = none →
    Session.reply e.toList = ⟨[Session.answerLine (keyword value)], none⟩
  script (number : Nat) (raw : List Char) : Text.trim raw = e.toList →
    Script.isSkipped e.toList = false →
      Script.block number raw = .ok (Script.closedBlock e.toList value)

/-- The command line, a session and a line of a script each report the syntax error of a plain
expression. -/
structure RefusedEverywhere (e : String) (error : SyntaxError) : Prop where
  commandLine (settings : Settings) : CommandLine.perform settings (.evaluate e) =
    .ok (CommandLine.refuseSyntax error)
  session : Session.Command.ofWord? (Session.firstWord e.toList) = none →
    Session.reply e.toList = ⟨[], some (.evaluation (.malformed error))⟩
  script (number : Nat) (raw : List Char) : Text.trim raw = e.toList →
    Script.isSkipped e.toList = false →
      Script.block number raw = .ok (Script.failedBlock number error)

namespace ClosedExpression

variable {e : String}

theorem perform_evaluate_eq (h : Expression.freeVariables e.toList = []) (settings : Settings) :
    CommandLine.perform settings (.evaluate e) =
      .ok (CommandLine.answerClosed ((Expression.evaluate e.toList).map keyword)) := by
  simp only [CommandLine.perform, CommandLine.answerExpression, h, List.isEmpty_nil, ↓reduceIte]

theorem reply_eq (h : Expression.freeVariables e.toList = [])
    (hc : Session.Command.ofWord? (Session.firstWord e.toList) = none) :
    Session.reply e.toList =
      Session.closedReply ((Expression.evaluate e.toList).map keyword) := by
  simp only [Session.reply, hc, Session.expressionReply, h, List.isEmpty_nil, ↓reduceIte]

theorem printedEverywhere {value : Bool} (h : Expression.freeVariables e.toList = [])
    (he : Expression.evaluate e.toList = .ok value) : PrintedEverywhere e value where
  commandLine settings := by
    rw [perform_evaluate_eq h, he]
    rfl
  session hc := by
    rw [reply_eq h hc, he]
    rfl
  script number raw hr hs := by
    simp [Script.block, hr, hs, Script.evaluateLine, h, he]

theorem refusedEverywhere {error : SyntaxError} (h : Expression.freeVariables e.toList = [])
    (he : Expression.evaluate e.toList = .error error) : RefusedEverywhere e error where
  commandLine settings := by
    rw [perform_evaluate_eq h, he]
    rfl
  session hc := by
    rw [reply_eq h hc, he]
    rfl
  script number raw hr hs := by
    simp [Script.block, hr, hs, Script.evaluateLine, h, he]

/-- Without constants a closed expression is answered as its table of one row has it, by the same
value or the same error. With a constant it is refused whatever the table has. -/
theorem answered_as_tabulated (e : String) (h : Expression.freeVariables e.toList = []) :
    ((∀ c ∈ e.toList, Expression.constant? c = none) →
      (∃ value, TruthTable.build e none = .ok ⟨e, [], [⟨[], value⟩]⟩ ∧ PrintedEverywhere e value) ∨
        ∃ error, TruthTable.build e none = .error (.evaluation (.malformed error)) ∧
          RefusedEverywhere e error) ∧
    ((∃ c ∈ e.toList, (Expression.constant? c).isSome) →
      ∃ error, RefusedEverywhere e (.lexical error)) := by
  constructor
  · intro hs
    have hunder := Expression.evaluateUnder_closed h hs []
    cases he : Expression.evaluate e.toList with
    | ok value =>
      rw [he] at hunder
      exact .inl ⟨value, TruthTable.build_closed_of_ok h hunder, printedEverywhere h he⟩
    | error error =>
      rw [he] at hunder
      exact .inr ⟨error, TruthTable.build_closed_of_error h hunder, refusedEverywhere h he⟩
  · rintro ⟨c, hc, hconstant⟩
    obtain ⟨error, he⟩ := Expression.exists_evaluate_error_of_constant hc hconstant
    exact ⟨error, refusedEverywhere h he⟩

theorem answered_as_tabulated_negatedGroup :
    Expression.freeVariables "¬(true∧false)".toList = [] ∧
      TruthTable.build "¬(true∧false)" none = .ok ⟨"¬(true∧false)", [], [⟨[], true⟩]⟩ ∧
        PrintedEverywhere "¬(true∧false)" true := by
  have h : Expression.freeVariables "¬(true∧false)".toList = [] := by rfl
  have hb : TruthTable.build "¬(true∧false)" none =
      .ok ⟨"¬(true∧false)", [], [⟨[], true⟩]⟩ := by rfl
  have hall : "¬(true∧false)".toList.all (fun c => (Expression.constant? c).isNone) = true := by
    rfl
  have hs : ∀ c ∈ "¬(true∧false)".toList, Expression.constant? c = none := fun c hc =>
    Option.isNone_iff_eq_none.mp (List.all_eq_true.mp hall c hc)
  refine ⟨h, hb, ?_⟩
  rcases (answered_as_tabulated _ h).1 hs with ⟨value, ht, hp⟩ | ⟨error, ht, -⟩
  · rw [hb] at ht
    cases ht
    exact hp
  · rw [hb] at ht
    cases ht

/-- The constant T alone has a table, and its row is true, but no front end evaluates it. -/
theorem constant_tabulated_but_refused :
    Expression.freeVariables "T".toList = [] ∧
      TruthTable.build "T" none = .ok ⟨"T", [], [⟨[], true⟩]⟩ ∧
        RefusedEverywhere "T" (.lexical (.unknownCharacter 'T' 0)) ∧
          ¬PrintedEverywhere "T" true := by
  have hr : RefusedEverywhere "T" (.lexical (.unknownCharacter 'T' 0)) :=
    refusedEverywhere rfl rfl
  refine ⟨rfl, rfl, hr, fun hp => ?_⟩
  have hcode := (hr.commandLine .defaults).symm.trans (hp.commandLine .defaults)
  exact absurd (congrArg CommandLine.Outcome.code (Except.ok.inj hcode)) (by decide)

end ClosedExpression

end Sentential
