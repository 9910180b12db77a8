import Sentential.Proofs.ExitCode
import Sentential.Proofs.Keeping
import Sentential.Session

/-!
# Front ends

The command line, the service and a session tabulate an expression each in its own way. What they
answer comes from one outcome: the table under the limit of the settings, the error of a text that
is no expression, or an excess of variables. Each outcome has one answer in each front end, with the
same texts, and an answer is given as a whole or not at all. A session has no limit.
-/
namespace Sentential

/-! ## The command line -/

namespace CommandLine

variable {arguments : List String} {env : Environment} {settings : Settings} {c : Command}
  {e : String} {print : TruthTable → List String}

/-- The arguments ask for a command, under settings that are valid. -/
def Calls (arguments : List String) (env : Environment) (settings : Settings) (c : Command) :
    Prop :=
  ∃ i, readInvocation arguments = .ok i ∧ settingsOf i env = .ok settings ∧ i.command = some c

theorem Calls.run_eq (h : Calls arguments env settings c) :
    run arguments env = perform settings c := by
  obtain ⟨i, hi, hs, hc⟩ := h
  rw [run_eq_execute env hi, execute, hs, hc]

/-- The command prints these lines and no more, and ends in the code. So does every run that calls
it. -/
def Answers (settings : Settings) (c : Command) (code : Nat) (output : List String) : Prop :=
  ∃ o : Outcome, perform settings c = .ok o ∧ o.code = code ∧ o.output = output ∧
    ∀ arguments env, Calls arguments env settings c → run arguments env = .ok o

theorem answers_of_perform {o : Outcome} (h : perform settings c = .ok o) :
    Answers settings c o.code o.output :=
  ⟨o, h, rfl, rfl, fun _ _ hc => hc.run_eq.trans h⟩

/-- The command prints the table of an expression or normal forms of it. -/
def Command.Tabulates (c : Command) (e : String) : Prop :=
  c = .table e ∨ ∃ disjunctive conjunctive, c = .forms e disjunctive conjunctive

theorem perform_of_tabulates (h : c.Tabulates e) (settings : Settings) :
    ∃ print, perform settings c = answerTable settings e print := by
  rcases h with rfl | ⟨disjunctive, conjunctive, rfl⟩
  · exact ⟨_, rfl⟩
  · exact ⟨formLines disjunctive conjunctive, rfl⟩

section
variable (hp : perform settings c = answerTable settings e print)
include hp

theorem answers_of_ok {t : TruthTable}
    (h : TruthTable.build e (some settings.maxVariables) = .ok t) :
    Answers settings c 0 (print t) := by
  rw [answerTable, h] at hp
  exact answers_of_perform hp

theorem answers_of_malformed {error : SyntaxError}
    (h : TruthTable.build e (some settings.maxVariables) =
      .error (.evaluation (.malformed error))) :
    Answers settings c 1 ["⚠ Syntax Error: " ++ error.message] := by
  rw [answerTable, h] at hp
  exact answers_of_perform hp

theorem answers_of_excess {error : VariableExcess}
    (h : TruthTable.build e (some settings.maxVariables) = .error (.excess error)) :
    Answers settings c 1 ["⚠ Too Many Variables: " ++ error.message] := by
  rw [answerTable, h] at hp
  exact answers_of_perform hp

end

end CommandLine

/-! ## The service -/

namespace Service

variable {F : Framework} {s : Service} {r : F.Request} {settings : Settings} {e : String}
  {body : TruthTable → Json}

theorem respond_under (hF : F.Documented) (hs : s.inForce = .ok settings) {c : Call}
    (hc : F.call? r = some c) (hhandle : s.handle c = s.tabulate e body) :
    (s.respond r).1 = F.deliver r (answerTable settings e body) := by
  rw [respond_of_call hc, hhandle, deliver_tabulate hF, hs]
  rfl

theorem respond_truthTable (hF : F.Documented) (hs : s.inForce = .ok settings)
    (hr : F.Posts r .truthTable e) :
    (s.respond r).1 = F.deliver r (answerTable settings e tableBody) :=
  respond_under (c := .truthTable e) hF hs (hF.call?_of_posts rfl hr) rfl

theorem respond_normalForms (hF : F.Documented) (hs : s.inForce = .ok settings)
    (hr : F.Posts r .normalForms e) :
    (s.respond r).1 = F.deliver r (answerTable settings e formsBody) :=
  respond_under (c := .normalForms e) hF hs (hF.call?_of_posts rfl hr) rfl

theorem respond_tabulates (hF : F.Documented) (hs : s.inForce = .ok settings)
    (hr : F.Tabulates r e) :
    ∃ body, (s.respond r).1 = F.deliver r (answerTable settings e body) := by
  rcases hr with hr | hr
  · exact ⟨tableBody, respond_truthTable hF hs hr⟩
  · exact ⟨formsBody, respond_normalForms hF hs hr⟩

theorem tableBody_of_build {limit : Option Int} {t : TruthTable}
    (h : TruthTable.build e limit = .ok t) :
    tableBody t = .object [("expression", .text e), ("variables", .list (t.names.map .text)),
      ("rows", .list (t.rows.map fun row => .object
        [("assignment", .object (row.bindings.map fun b => (b.1, .boolean b.2))),
          ("result", .boolean row.result)])),
      ("rendered", .text t.format)] := by
  have hrows : t.rows.map rowBody = t.rows.map fun row => .object
      [("assignment", .object (row.bindings.map fun b => (b.1, .boolean b.2))),
        ("result", .boolean row.result)] :=
    List.map_congr_left fun row hrow => by
      rw [rowBody, TruthTable.assignment_of_build h row hrow]
  rw [tableBody, hrows, TruthTable.expression_of_build h]

theorem formsBody_of_build {limit : Option Int} {t : TruthTable}
    (h : TruthTable.build e limit = .ok t) :
    formsBody t = .object [("expression", .text e), ("variables", .list (t.names.map .text)),
      ("dnf", .text t.disjunctiveForm), ("cnf", .text t.conjunctiveForm)] := by
  rw [formsBody, TruthTable.expression_of_build h]

theorem onMalformed_eq (error : SyntaxError) :
    onMalformed error = ⟨400, .object [("detail", .object [("stage", .text (stage error)),
      ("kind", .text error.code), ("message", .text error.message),
      ("pos", error.position?.elim .null fun place => .integer place)])]⟩ := by
  rw [onMalformed, syntaxDetail]
  cases error.position? <;> rfl

theorem sends_of_ok (hF : F.Documented) (r : F.Request) {t : TruthTable}
    (h : TruthTable.build e (some settings.maxVariables) = .ok t) :
    F.Sends (F.deliver r (answerTable settings e body)) ⟨200, body t⟩ := by
  rw [answerTable, h]
  exact hF.returned r (body t)

theorem sends_of_malformed (hF : F.Documented) (r : F.Request) {error : SyntaxError}
    (h : TruthTable.build e (some settings.maxVariables) =
      .error (.evaluation (.malformed error))) :
    F.Sends (F.deliver r (answerTable settings e body)) (onMalformed error) := by
  rw [answerTable, h]
  exact hF.malformed r error

theorem sends_of_excess (hF : F.Documented) (r : F.Request) {error : VariableExcess}
    (h : TruthTable.build e (some settings.maxVariables) = .error (.excess error)) :
    F.Sends (F.deliver r (answerTable settings e body)) ⟨400, detail (excessDetail error)⟩ := by
  rw [answerTable, h]
  exact hF.http r 400 (excessDetail error)

theorem status_answerTable_ne (hF : F.Documented) (r : F.Request) (settings : Settings)
    (e : String) (body : TruthTable → Json) :
    F.status (F.deliver r (answerTable settings e body)) ≠ 500 := by
  rcases TruthTable.build_within_cases e settings.maxVariables with
    ⟨t, h, -⟩ | ⟨error, h, -⟩ | h
  · have hstatus : F.status (F.deliver r (answerTable settings e body)) = 200 :=
      (sends_of_ok hF r h).1
    omega
  · have hstatus : F.status (F.deliver r (answerTable settings e body)) = 400 :=
      (sends_of_malformed hF r h).1
    omega
  · have hstatus : F.status (F.deliver r (answerTable settings e body)) = 400 :=
      (sends_of_excess hF r h).1
    omega

end Service

/-! ## Sessions -/

namespace Session

theorem words_append (word rest : List Char) (h : ' ' ∉ word) :
    firstWord (word ++ ' ' :: rest) = word ∧ afterFirstWord (word ++ ' ' :: rest) = rest := by
  have hword : ∀ c ∈ word, decide (c ≠ ' ') = true := fun c hc =>
    decide_eq_true fun he => h (he ▸ hc)
  constructor
  · rw [firstWord, List.takeWhile_append_of_pos hword]
    exact List.append_nil word
  · rw [afterFirstWord, List.dropWhile_append_of_pos hword]
    rfl

theorem reply_table (e : String) :
    reply ("table " ++ e).toList = tableReply e.toList fun t => [t.format] := by
  obtain ⟨hfirst, hrest⟩ := words_append "table".toList e.toList (by decide)
  have htext : ("table " ++ e).toList = "table".toList ++ ' ' :: e.toList := by
    rw [String.toList_append]
    rfl
  have hc : Command.ofWord? "table".toList = some .table := by rfl
  simp only [reply, htext, hfirst, hrest, hc]

theorem reply_forms (e : String) :
    reply ("forms " ++ e).toList = tableReply e.toList formLines := by
  obtain ⟨hfirst, hrest⟩ := words_append "forms".toList e.toList (by decide)
  have htext : ("forms " ++ e).toList = "forms".toList ++ ' ' :: e.toList := by
    rw [String.toList_append]
    rfl
  have hc : Command.ofWord? "forms".toList = some .forms := by rfl
  simp only [reply, htext, hfirst, hrest, hc]

theorem output_of_failure {s : List Char} {print : TruthTable → List String}
    (h : (tableReply s print).failure ≠ none) : (tableReply s print).output = [] := by
  revert h
  rw [tableReply]
  cases TruthTable.build (String.ofList s) none with
  | ok t => exact fun h => absurd rfl h
  | error error => exact fun _ => rfl

end Session

/-! ## All of them -/

/-- The table and its forms, as each front end gives them. -/
structure TabulatedEverywhere (F : Framework) (e : String) (settings : Settings) (t : TruthTable) :
    Prop where
  tableCommand : CommandLine.Answers settings (.table e) 0 [t.format]
  formsCommand (both : Bool) : CommandLine.Answers settings (.forms e both both) 0
    ["DNF: " ++ t.disjunctiveForm, "CNF: " ++ t.conjunctiveForm]
  disjunctiveCommand : CommandLine.Answers settings (.forms e true false) 0
    ["DNF: " ++ t.disjunctiveForm]
  conjunctiveCommand : CommandLine.Answers settings (.forms e false true) 0
    ["CNF: " ++ t.conjunctiveForm]
  tableRoute {s : Service} {r : F.Request} :
    s.inForce = .ok settings → F.Posts r .truthTable e →
      F.Sends (s.respond r).1 ⟨200, .object [("expression", .text e),
        ("variables", .list (t.names.map .text)),
        ("rows", .list (t.rows.map fun row => .object
          [("assignment", .object (row.bindings.map fun b => (b.1, .boolean b.2))),
            ("result", .boolean row.result)])),
        ("rendered", .text t.format)]⟩
  formsRoute {s : Service} {r : F.Request} :
    s.inForce = .ok settings → F.Posts r .normalForms e →
      F.Sends (s.respond r).1 ⟨200, .object [("expression", .text e),
        ("variables", .list (t.names.map .text)), ("dnf", .text t.disjunctiveForm),
        ("cnf", .text t.conjunctiveForm)]⟩
  tableLine : Session.reply ("table " ++ e).toList = ⟨[t.format], none⟩
  formsLine : Session.reply ("forms " ++ e).toList =
    ⟨["  DNF: " ++ t.disjunctiveForm, "  CNF: " ++ t.conjunctiveForm], none⟩

/-- The error of a text that is no expression, as each front end gives it. -/
structure MalformedEverywhere (F : Framework) (e : String) (settings : Settings)
    (error : SyntaxError) : Prop where
  commandLine {c : CommandLine.Command} : c.Tabulates e →
    CommandLine.Answers settings c 1 ["⚠ Syntax Error: " ++ error.message]
  service {s : Service} {r : F.Request} : s.inForce = .ok settings → F.Tabulates r e →
    F.Sends (s.respond r).1 ⟨400, .object [("detail", .object
      [("stage", .text (Service.stage error)), ("kind", .text error.code),
        ("message", .text error.message),
        ("pos", error.position?.elim .null fun place => .integer place)])]⟩
  tableLine : Session.reply ("table " ++ e).toList = ⟨[], some (.evaluation (.malformed error))⟩
  formsLine : Session.reply ("forms " ++ e).toList = ⟨[], some (.evaluation (.malformed error))⟩

structure ExcessEverywhere (F : Framework) (e : String) (settings : Settings)
    (error : VariableExcess) : Prop where
  commandLine {c : CommandLine.Command} : c.Tabulates e →
    CommandLine.Answers settings c 1 ["⚠ Too Many Variables: " ++ error.message]
  service {s : Service} {r : F.Request} : s.inForce = .ok settings → F.Tabulates r e →
    F.Sends (s.respond r).1 ⟨400, .object [("detail", .object [("stage", .text "table"),
      ("kind", .text "TOO_MANY_VARIABLES"), ("message", .text error.message),
      ("variables", .list (error.names.map .text)), ("limit", .integer error.limit)])]⟩

namespace FrontEnds

variable {F : Framework} {e : String} {settings : Settings}

theorem tabulatedEverywhere (hF : F.Documented) {t : TruthTable}
    (h : TruthTable.build e (some settings.maxVariables) = .ok t)
    (hfree : TruthTable.build e none = .ok t) : TabulatedEverywhere F e settings t where
  tableCommand := CommandLine.answers_of_ok (c := .table e) rfl h
  formsCommand both := by
    have hforms := CommandLine.answers_of_ok (c := .forms e both both) rfl h
    cases both <;> exact hforms
  disjunctiveCommand := CommandLine.answers_of_ok (c := .forms e true false) rfl h
  conjunctiveCommand := CommandLine.answers_of_ok (c := .forms e false true) rfl h
  tableRoute hs hr := by
    rw [Service.respond_truthTable hF hs hr, ← Service.tableBody_of_build h]
    exact Service.sends_of_ok hF _ h
  formsRoute hs hr := by
    rw [Service.respond_normalForms hF hs hr, ← Service.formsBody_of_build h]
    exact Service.sends_of_ok hF _ h
  tableLine := by
    rw [Session.reply_table, Session.tableReply, String.ofList_toList, hfree]
  formsLine := by
    rw [Session.reply_forms, Session.tableReply, String.ofList_toList, hfree]
    rfl

theorem malformedEverywhere (hF : F.Documented) {error : SyntaxError}
    (h : TruthTable.build e (some settings.maxVariables) =
      .error (.evaluation (.malformed error)))
    (hfree : TruthTable.build e none = .error (.evaluation (.malformed error))) :
    MalformedEverywhere F e settings error where
  commandLine hc := by
    obtain ⟨print, hp⟩ := CommandLine.perform_of_tabulates hc settings
    exact CommandLine.answers_of_malformed hp h
  service hs hr := by
    obtain ⟨body, hrespond⟩ := Service.respond_tabulates hF hs hr
    rw [hrespond, ← Service.onMalformed_eq]
    exact Service.sends_of_malformed hF _ h
  tableLine := by
    rw [Session.reply_table, Session.tableReply, String.ofList_toList, hfree]
  formsLine := by
    rw [Session.reply_forms, Session.tableReply, String.ofList_toList, hfree]

theorem excessEverywhere (hF : F.Documented) {error : VariableExcess}
    (h : TruthTable.build e (some settings.maxVariables) = .error (.excess error)) :
    ExcessEverywhere F e settings error where
  commandLine hc := by
    obtain ⟨print, hp⟩ := CommandLine.perform_of_tabulates hc settings
    exact CommandLine.answers_of_excess hp h
  service hs hr := by
    obtain ⟨body, hrespond⟩ := Service.respond_tabulates hF hs hr
    rw [hrespond]
    exact Service.sends_of_excess hF _ h

/-- Under any settings the front ends agree on any expression. The outcome of its table within the
limit decides what each of them answers, so that no request for it fails without an answer, and a
line of a session that fails has printed nothing. -/
theorem answered_alike (F : Framework) (hF : F.Documented) (e : String) (settings : Settings) :
    ((∃ t, TruthTable.build e (some settings.maxVariables) = .ok t ∧
        TabulatedEverywhere F e settings t) ∨
      (∃ error, TruthTable.build e (some settings.maxVariables) =
          .error (.evaluation (.malformed error)) ∧ MalformedEverywhere F e settings error) ∨
      (TruthTable.build e (some settings.maxVariables) =
          .error (.excess ⟨TruthTable.variablesOf e, settings.maxVariables⟩) ∧
        ExcessEverywhere F e settings ⟨TruthTable.variablesOf e, settings.maxVariables⟩)) ∧
    (∀ (s : Service) (r : F.Request), s.inForce = .ok settings → F.Tabulates r e →
      F.status (s.respond r).1 ≠ 500) ∧
    ∀ line ∈ ["table " ++ e, "forms " ++ e], (Session.reply line.toList).failure ≠ none →
      (Session.reply line.toList).output = [] := by
  refine ⟨?_, fun s r hs hr => ?_, fun line hline => ?_⟩
  · rcases TruthTable.build_within_cases e settings.maxVariables with
      ⟨t, h, hfree⟩ | ⟨error, h, hfree⟩ | h
    · exact .inl ⟨t, h, tabulatedEverywhere hF h hfree⟩
    · exact .inr (.inl ⟨error, h, malformedEverywhere hF h hfree⟩)
    · exact .inr (.inr ⟨h, excessEverywhere hF h⟩)
  · obtain ⟨body, hrespond⟩ := Service.respond_tabulates hF hs hr
    rw [hrespond]
    exact Service.status_answerTable_ne hF r settings e body
  · obtain rfl | rfl : line = "table " ++ e ∨ line = "forms " ++ e := by simpa using hline
    · rw [Session.reply_table]
      exact Session.output_of_failure
    · rw [Session.reply_forms]
      exact Session.output_of_failure

theorem answered_alike_disjunction :
    (∃ o, CommandLine.run ["forms", "--cnf", "A∨B"] [] = .ok o ∧ o.code = 0 ∧
        o.output = ["CNF: (A ∨ B)"]) ∧
      Framework.inProcess.Sends (Service.respond {} (InProcess.Request.mk "POST"
          "/api/normal-forms" (some (.object [("expression", .text "A∨B")])))).1
        ⟨200, .object [("expression", .text "A∨B"), ("variables", .list [.text "A", .text "B"]),
          ("dnf", .text "(¬A ∧ B) ∨ (A ∧ ¬B) ∨ (A ∧ B)"), ("cnf", .text "(A ∨ B)")]⟩ ∧
      Session.reply "forms A∨B".toList =
        ⟨["  DNF: (¬A ∧ B) ∨ (A ∧ ¬B) ∨ (A ∧ B)", "  CNF: (A ∨ B)"], none⟩ := by
  have hb : TruthTable.build "A∨B" (some Settings.defaults.maxVariables) = .ok ⟨"A∨B", ["A", "B"],
      [⟨[("A", false), ("B", false)], false⟩, ⟨[("A", false), ("B", true)], true⟩,
        ⟨[("A", true), ("B", false)], true⟩, ⟨[("A", true), ("B", true)], true⟩]⟩ := by rfl
  have hcalls : CommandLine.Calls ["forms", "--cnf", "A∨B"] [] .defaults
      (.forms "A∨B" false true) :=
    ⟨{ command := some (.forms "A∨B" false true) }, by rfl, by rfl, rfl⟩
  have hposts : Framework.inProcess.Posts (InProcess.Request.mk "POST" "/api/normal-forms"
      (some (.object [("expression", .text "A∨B")]))) .normalForms "A∨B" := ⟨rfl, rfl, rfl⟩
  obtain ⟨⟨t, h, htable⟩ | ⟨error, h, -⟩ | ⟨h, -⟩, -, -⟩ :=
    answered_alike .inProcess Framework.inProcess_documented "A∨B" .defaults
  · obtain rfl := Except.ok.inj (hb.symm.trans h)
    obtain ⟨o, -, hcode, houtput, hrun⟩ := htable.conjunctiveCommand
    have hroute := htable.formsRoute (s := {}) (by rfl) hposts
    exact ⟨⟨o, hrun _ _ hcalls, hcode, houtput⟩, hroute, htable.formsLine⟩
  · rw [hb] at h
    cases h
  · rw [hb] at h
    cases h

end FrontEnds

end Sentential
