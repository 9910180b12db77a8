import Sentential.CommandLine
import Sentential.Proofs.Replacement
import Sentential.Proofs.Settings
import Sentential.Proofs.Uniformity

/-!
# Exit codes

A run with understood arguments ends in a code that is known beforehand: 2 if a setting is not
valid, 1 if there is no command or the expression is refused, and 0 otherwise. One check is made
only when the command is under way, that of the port of the service, and there an error is not
answered by a code.
-/
namespace Sentential

namespace TruthTable

/-- The expression has more variables than the limit, or it is no open expression. -/
def Refused (limit : Int) (e : String) : Prop :=
  limit < (variablesOf e).length ∨ ¬∃ φ, Expression.Phrase .expression e.toList φ

end TruthTable

namespace CommandLine

/-- The text is no closed expression. -/
def Unreadable (e : String) : Prop :=
  ¬∃ w f, Token.Spells .closed e.toList w ∧ Derives .expression w f

theorem unreadable_iff {e : String} :
    Unreadable e ↔ ∃ error, Expression.parse e.toList = .error error := by
  have hread : (∃ w f, Token.Spells .closed e.toList w ∧ Derives .expression w f) ↔
      ∃ f, Expression.parse e.toList = .ok f := by
    simp only [Expression.parse_eq_ok_iff_spells]
    exact exists_comm
  rw [Unreadable, hread]
  cases Expression.parse e.toList <;> simp

/-- The command has an expression that it does not accept. -/
def Command.Refused (limit : Int) : Command → Prop
  | .evaluate e =>
    if Expression.freeVariables e.toList = [] then Unreadable e else TruthTable.Refused limit e
  | .parse e => Unreadable e
  | .table e => TruthTable.Refused limit e
  | .forms e _ _ => TruthTable.Refused limit e
  | .connectives => False
  | .serve _ _ _ => False

/-- The run comes to an end, with code 1 if it is refused and 0 otherwise. -/
def EndsRefused (result : Except Escape Outcome) (refused : Prop) : Prop :=
  ∃ o, result = .ok o ∧ (o.code = 1 ∧ refused ∨ o.code = 0 ∧ ¬refused)

theorem answerClosed_ends (e : String) (f : Formula Bool → List Char) :
    EndsRefused (.ok (answerClosed ((Expression.parse e.toList).map f))) (Unreadable e) := by
  refine ⟨_, rfl, ?_⟩
  rw [unreadable_iff]
  cases Expression.parse e.toList with
  | error error => exact .inl ⟨rfl, error, rfl⟩
  | ok g => exact .inr ⟨rfl, by simp⟩

theorem answerTable_ends (settings : Settings) (e : String) (print : TruthTable → List String) :
    EndsRefused (answerTable settings e print) (TruthTable.Refused settings.maxVariables e) := by
  by_cases hx : settings.maxVariables < (TruthTable.variablesOf e).length
  · rw [answerTable, TruthTable.build_eq_excess hx]
    exact ⟨_, rfl, .inl ⟨rfl, .inl hx⟩⟩
  · by_cases hφ : ∃ φ, Expression.Phrase .expression e.toList φ
    · obtain ⟨φ, hp⟩ := hφ
      rw [answerTable, TruthTable.build_eq_unlimited hx, TruthTable.build_of_phrase hp]
      exact ⟨_, rfl, .inr ⟨rfl, not_or.mpr ⟨hx, not_not_intro ⟨φ, hp⟩⟩⟩⟩
    · obtain ⟨error, hb⟩ := TruthTable.exists_build_error_of_not_phrase hφ
      rw [answerTable, TruthTable.build_eq_unlimited hx, hb]
      exact ⟨_, rfl, .inl ⟨rfl, .inr hφ⟩⟩

/-- The log of a run does not bear on its end. -/
theorem EndsRefused.map {result : Except Escape Outcome} {refused : Prop}
    (h : EndsRefused result refused) (log : Outcome → List String) :
    EndsRefused (result.map fun o => { o with log := log o }) refused := by
  obtain ⟨o, rfl, ho⟩ := h
  exact ⟨_, rfl, ho⟩

theorem answerExpression_ends (settings : Settings) (e : String) :
    EndsRefused (answerExpression settings e)
      ((Command.evaluate e).Refused settings.maxVariables) := by
  by_cases h : Expression.freeVariables e.toList = []
  · have hparse : (Expression.evaluate e.toList).map keyword =
        (Expression.parse e.toList).map fun f => keyword f.value := by
      rw [Expression.evaluate]
      cases Expression.parse e.toList <;> rfl
    rw [answerExpression, Command.Refused, if_pos h, if_pos (by rw [h]; rfl), hparse]
    exact answerClosed_ends e _
  · rw [answerExpression, Command.Refused, if_neg h, if_neg (by simpa using h)]
    exact (answerTable_ends settings e _).map _

/-! ## Commands -/

/-- The port is valid, if the command names one. -/
def Command.ValidPort (c : Command) : Prop :=
  ∀ host port openBrowser, c = .serve host (some port) openBrowser → Settings.ValidPort port

theorem perform_ends (settings : Settings) {c : Command} (h : c.ValidPort) :
    EndsRefused (perform settings c) (c.Refused settings.maxVariables) := by
  cases c with
  | evaluate e => exact answerExpression_ends settings e
  | parse e => exact answerClosed_ends e Formula.render
  | table e => exact answerTable_ends settings e _
  | forms e disjunctive conjunctive => exact answerTable_ends settings e _
  | connectives => exact ⟨_, rfl, .inr ⟨rfl, not_false⟩⟩
  | serve host port openBrowser =>
    have hc : ∃ t, settings.override { host, port, openBrowser } = .ok t := by
      rw [Settings.exists_override_iff]
      have hport : ∀ n, port = some n → Settings.ValidPort n := fun n hn =>
        h host n openBrowser (congrArg (Command.serve host · openBrowser) hn)
      exact ⟨hport, fun _ hn => (nomatch hn), fun _ hn => (nomatch hn)⟩
    obtain ⟨t, ht⟩ := hc
    rw [perform, ht]
    exact ⟨_, rfl, .inr ⟨rfl, not_false⟩⟩

theorem perform_serve_of_invalid (settings : Settings) (host : Option String) {port : Int}
    (openBrowser : Option Bool) (h : ¬Settings.ValidPort port) :
    perform settings (.serve host (some port) openBrowser) =
      .error (.settings (.portOutOfRange port)) := by
  have hc : settings.override { host, port := some port, openBrowser } =
      .error (.portOutOfRange port) := Settings.check_eq_portOutOfRange h
  rw [perform, hc]

/-! ## Runs -/

/-- The general switches have valid values. -/
structure Invocation.Valid (i : Invocation) : Prop where
  logLevel : ∀ word, i.logLevel = some word → Settings.ValidLevel word
  maxVariables : ∀ limit, i.maxVariables = some limit → Settings.ValidLimit limit

/-- There is no command, or its expression is refused. -/
def Invocation.Refused (limit : Int) (i : Invocation) : Prop :=
  i.command = none ∨ ∃ c, i.command = some c ∧ c.Refused limit

theorem exists_settingsOf_iff (i : Invocation) (env : Environment) :
    (∃ s, settingsOf i env = .ok s) ↔ env.Valid ∧ i.Valid := by
  rw [← Settings.exists_ofEnvironment_iff, settingsOf]
  cases Settings.ofEnvironment env with
  | error e => simp
  | ok s =>
    simp only [Settings.exists_override_iff]
    constructor
    · rintro ⟨-, hl, hm⟩
      exact ⟨⟨s, rfl⟩, hl, hm⟩
    · rintro ⟨-, hl, hm⟩
      exact ⟨fun _ hn => (nomatch hn), hl, hm⟩

theorem run_eq_execute {arguments : List String} {i : Invocation} (env : Environment)
    (h : readInvocation arguments = .ok i) : run arguments env = execute i env := by
  rw [run, h]

/-- With settings that are not valid a run only says so. With valid ones it ends in a code that the
command and its expression decide, unless the command is to serve on a port out of range: that error
escapes. -/
theorem run_exitCode (arguments : List String) (i : Invocation) (env : Environment)
    (h : readInvocation arguments = .ok i) :
    (¬(env.Valid ∧ i.Valid) → ∃ error, settingsOf i env = .error error ∧
      run arguments env =
        .ok { code := 2, output := ["⚠ Configuration Error: " ++ error.message] }) ∧
    (env.Valid ∧ i.Valid → ∃ settings, settingsOf i env = .ok settings ∧
      ((∀ c, i.command = some c → c.ValidPort) →
        ∃ o, run arguments env = .ok o ∧
          (o.code = 1 ∧ i.Refused settings.maxVariables ∨
            o.code = 0 ∧ ¬i.Refused settings.maxVariables)) ∧
      ∀ host port openBrowser, i.command = some (.serve host (some port) openBrowser) →
        ¬Settings.ValidPort port →
          run arguments env = .error (.settings (.portOutOfRange port))) := by
  rw [run_eq_execute env h, execute]
  constructor
  · intro hbad
    cases hs : settingsOf i env with
    | error error => exact ⟨error, rfl, rfl⟩
    | ok settings => exact absurd ((exists_settingsOf_iff i env).mp ⟨settings, hs⟩) hbad
  · intro hgood
    obtain ⟨settings, hs⟩ := (exists_settingsOf_iff i env).mpr hgood
    refine ⟨settings, hs, fun hport => ?_, fun host port openBrowser hc hinvalid => ?_⟩
    · rw [hs]
      cases hc : i.command with
      | none => exact ⟨_, rfl, .inl ⟨rfl, .inl hc⟩⟩
      | some c =>
        have hrefused : i.Refused settings.maxVariables ↔ c.Refused settings.maxVariables := by
          simp [Invocation.Refused, hc]
        rw [hrefused]
        exact perform_ends settings (hport c hc)
    · rw [hs, hc]
      exact perform_serve_of_invalid settings host openBrowser hinvalid

theorem run_exitCode_overLimit :
    readInvocation ["--max-variables", "1", "table", "A∧B"] =
        .ok { maxVariables := some 1, command := some (.table "A∧B") } ∧
      ∃ o, run ["--max-variables", "1", "table", "A∧B"] [] = .ok o ∧ o.code = 1 := by
  have hi : readInvocation ["--max-variables", "1", "table", "A∧B"] =
      .ok { maxVariables := some 1, command := some (.table "A∧B") } := by rfl
  refine ⟨hi, ?_⟩
  obtain ⟨-, hvalid⟩ := run_exitCode _ _ [] hi
  obtain ⟨settings, hs, hends, -⟩ := hvalid ((exists_settingsOf_iff _ _).mp ⟨_, rfl⟩)
  obtain rfl := Except.ok.inj hs
  obtain ⟨o, ho, ⟨hcode, -⟩ | ⟨-, hnot⟩⟩ := hends fun c hc _ _ _ hserve => by
    rw [hserve] at hc
    cases hc
  · exact ⟨o, ho, hcode⟩
  · exact absurd (.inr ⟨_, rfl, .inl (by decide)⟩) hnot

/-- A port out of range, given to the service, ends the run without a code. -/
theorem run_serve_portZero :
    readInvocation ["serve", "--port", "0"] =
        .ok { command := some (.serve none (some 0) none) } ∧
      run ["serve", "--port", "0"] [] = .error (.settings (.portOutOfRange 0)) ∧
        ¬∃ o, run ["serve", "--port", "0"] [] = .ok o := by
  have hrun : run ["serve", "--port", "0"] [] = .error (.settings (.portOutOfRange 0)) := by rfl
  refine ⟨by rfl, hrun, ?_⟩
  rintro ⟨o, ho⟩
  rw [hrun] at ho
  cases ho

end CommandLine

end Sentential
