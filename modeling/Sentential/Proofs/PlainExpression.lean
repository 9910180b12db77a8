import Sentential.Proofs.ClosedExpression
import Sentential.Proofs.FrontEnds
import Sentential.Proofs.Script
import Sentential.Proofs.Session

/-!
# Plain expressions

A text that is neither blank nor a command nor a comment, and that stands on one line, is answered
by its value if it has no free variables, and by its table if it has some. The command line, a
session and a script each decide that for themselves and word the answer in their own way, and the
service evaluates texts without free variables. What they give is one answer.
-/
namespace Sentential

/-- The text stands for itself on a line of a session or of a script. -/
structure Plain (e : String) : Prop where
  ne_nil : e.toList ≠ []
  oneLine : Text.OneLine e.toList
  no_return : '\r' ∉ e.toList
  trimmed : Text.trim e.toList = e.toList
  no_comment : e.toList.head? ≠ some '#'
  no_command : Session.Command.ofWord? (Session.firstWord e.toList) = none
  no_help : Session.isHelp e.toList = false
  goesOn : Session.isStop e.toList = false

theorem Plain.not_asksHelp {e : String} (h : Plain e) : ¬Session.AsksHelp e.toList :=
  Session.isHelp_eq_false_iff.mp h.no_help

namespace PlainExpression

inductive Answer where
  | value (b : Bool)
  | table (t : TruthTable)
  | refused (error : SyntaxError)

/-- A text without free variables is evaluated and any other one tabulated. -/
inductive Answer.Of (e : String) : Answer → Prop where
  | value {b : Bool} : Expression.freeVariables e.toList = [] →
      Expression.evaluate e.toList = .ok b → Of e (.value b)
  | unreadable {error : SyntaxError} : Expression.freeVariables e.toList = [] →
      Expression.evaluate e.toList = .error error → Of e (.refused error)
  | table {t : TruthTable} : Expression.freeVariables e.toList ≠ [] →
      TruthTable.build e none = .ok t → Of e (.table t)
  | untabulated {error : SyntaxError} : Expression.freeVariables e.toList ≠ [] →
      TruthTable.build e none = .error (.evaluation (.malformed error)) → Of e (.refused error)

namespace Answer

/-- What all tools print of an answer: the value, the table or the message of the error. -/
def text : Answer → String
  | .value b => String.ofList (keyword b)
  | .table t => t.format
  | .refused error => error.message

def code : Answer → Nat
  | .value _ => 0
  | .table _ => 0
  | .refused _ => 1

def onCommandLine (answer : Answer) : List String :=
  match answer with
  | .value _ => [answer.text]
  | .table _ => [answer.text]
  | .refused _ => ["⚠ Syntax Error: " ++ answer.text]

def inSession (answer : Answer) : List String :=
  match answer with
  | .value _ => ["  ⟹ " ++ answer.text]
  | .table _ => [answer.text]
  | .refused _ => ["  ⚠ Syntax Error: " ++ answer.text]

def inScript (e : String) (answer : Answer) : List String :=
  match answer with
  | .value _ => [e ++ "  ⟹ " ++ answer.text]
  | .table t => [e, answer.text, "DNF: " ++ t.disjunctiveForm, "CNF: " ++ t.conjunctiveForm, ""]
  | .refused _ => ["⚠ L1: Syntax Error: " ++ answer.text]

end Answer

theorem exists_answer (e : String) : ∃ answer, Answer.Of e answer := by
  by_cases h : Expression.freeVariables e.toList = []
  · cases he : Expression.evaluate e.toList with
    | ok b => exact ⟨_, .value h he⟩
    | error error => exact ⟨_, .unreadable h he⟩
  · rcases TruthTable.build_ok_or_malformed e with ⟨t, hb⟩ | ⟨error, hb⟩
    · exact ⟨_, .table h hb⟩
    · exact ⟨_, .untabulated h hb⟩

variable {e : String} {settings : Settings} {answer other : Answer}

theorem Answer.Of.unique (h : answer.Of e) (h' : other.Of e) : answer = other := by
  cases h with
  | value hclosed he =>
    cases h' with
    | value _ he' => simpa [he] using he'
    | unreadable _ he' => simp [he] at he'
    | table hopen _ => exact absurd hclosed hopen
    | untabulated hopen _ => exact absurd hclosed hopen
  | unreadable hclosed he =>
    cases h' with
    | value _ he' => simp [he] at he'
    | unreadable _ he' => simpa [he] using he'
    | table hopen _ => exact absurd hclosed hopen
    | untabulated hopen _ => exact absurd hclosed hopen
  | table hopen hb =>
    cases h' with
    | value hclosed _ => exact absurd hclosed hopen
    | unreadable hclosed _ => exact absurd hclosed hopen
    | table _ hb' => simpa [hb] using hb'
    | untabulated _ hb' => simp [hb] at hb'
  | untabulated hopen hb =>
    cases h' with
    | value hclosed _ => exact absurd hclosed hopen
    | unreadable hclosed _ => exact absurd hclosed hopen
    | table _ hb' => simp [hb] at hb'
    | untabulated _ hb' => simpa [hb] using hb'

/-! ## The command line -/

theorem perform_evaluate_open (h : Expression.freeVariables e.toList ≠ [])
    (settings : Settings) :
    CommandLine.perform settings (.evaluate e) =
      (CommandLine.answerTable settings e fun t => [t.format]).map fun o =>
        { o with log := CommandLine.logLine settings .info CommandLine.tableNotice ++ o.log } := by
  rw [CommandLine.perform, CommandLine.answerExpression, if_neg (by simpa using h)]

theorem commandLine_of_answer (h : answer.Of e)
    (hl : ((Expression.freeVariables e.toList).length : Int) ≤ settings.maxVariables) :
    CommandLine.Answers settings (.evaluate e) answer.code answer.onCommandLine := by
  have hlimit : ¬settings.maxVariables < (TruthTable.variablesOf e).length := by
    rw [TruthTable.variablesOf, List.length_map]
    exact Int.not_lt.mpr hl
  have hbuild := TruthTable.build_eq_unlimited hlimit
  cases h with
  | value hclosed he =>
    have hp := ClosedExpression.perform_evaluate_eq hclosed settings
    rw [he] at hp
    exact CommandLine.answers_of_perform hp
  | unreadable hclosed he =>
    have hp := ClosedExpression.perform_evaluate_eq hclosed settings
    rw [he] at hp
    exact CommandLine.answers_of_perform hp
  | table hopen hb =>
    have hp := perform_evaluate_open hopen settings
    rw [CommandLine.answerTable, hbuild, hb] at hp
    exact CommandLine.answers_of_perform hp
  | untabulated hopen hb =>
    have hp := perform_evaluate_open hopen settings
    rw [CommandLine.answerTable, hbuild, hb] at hp
    exact CommandLine.answers_of_perform hp

/-! ## Sessions -/

theorem ofList_toList_append (s : String) (t : List Char) :
    String.ofList (s.toList ++ t) = s ++ String.ofList t := by
  rw [String.ofList_append, String.ofList_toList]

theorem answerLine_eq (answer : List Char) :
    Session.answerLine answer = "  ⟹ " ++ String.ofList answer :=
  ofList_toList_append _ answer

theorem reply_open (h : Expression.freeVariables e.toList ≠ [])
    (hc : Session.Command.ofWord? (Session.firstWord e.toList) = none) :
    Session.reply e.toList = Session.tableReply e.toList fun t => [t.format] := by
  simp only [Session.reply, hc, Session.expressionReply]
  rw [if_neg (by simpa using h)]

theorem session_of_answer (h : answer.Of e) (hp : Plain e) :
    Session.Answers e.toList answer.inSession := by
  cases h with
  | value hclosed he =>
    have hr := ClosedExpression.reply_eq hclosed hp.no_command
    rw [he, Except.map, Session.closedReply, answerLine_eq] at hr
    exact .printed hp.ne_nil hp.not_asksHelp hr
  | unreadable hclosed he =>
    have hr := ClosedExpression.reply_eq hclosed hp.no_command
    rw [he] at hr
    exact .refused hp.ne_nil hp.not_asksHelp hr
  | table hopen hb =>
    have hr := reply_open hopen hp.no_command
    rw [Session.tableReply, String.ofList_toList, hb] at hr
    exact .printed hp.ne_nil hp.not_asksHelp hr
  | untabulated hopen hb =>
    have hr := reply_open hopen hp.no_command
    rw [Session.tableReply, String.ofList_toList, hb] at hr
    exact .refused hp.ne_nil hp.not_asksHelp hr

theorem run_session_of_answer (h : answer.Of e) (hp : Plain e) :
    Session.run [some e] =
      .ok ⟨2, Session.banner :: answer.inSession ++ ["\n  Goodbye."]⟩ := by
  have hstop : ¬Session.SaysStop (Text.trim e.toList) := by
    rw [hp.trimmed]
    exact Session.isStop_eq_false_iff.mp hp.goesOn
  have hline : Session.Answers (Text.trim e.toList) answer.inSession := by
    rw [hp.trimmed]
    exact session_of_answer h hp
  rw [Session.run, Session.converse_of_answers hstop hline rfl]
  rfl

/-! ## Scripts -/

theorem fromUTF8?_toUTF8 (s : String) : String.fromUTF8? s.toUTF8 = some s :=
  dif_pos s.isValidUTF8

theorem isSkipped_eq_false (hp : Plain e) : Script.isSkipped e.toList = false := by
  simp [Script.isSkipped, hp.ne_nil, hp.no_comment]

theorem closedBlock_eq (e : String) (b : Bool) :
    Script.closedBlock e.toList b = ⟨[e ++ "  ⟹ " ++ String.ofList (keyword b)], false⟩ := by
  have hline := ofList_toList_append (e ++ "  ⟹ ") (keyword b)
  rw [String.toList_append] at hline
  rw [Script.closedBlock, hline]

theorem evaluateLine_closed (h : Expression.freeVariables e.toList = []) :
    Script.evaluateLine e.toList =
      match Expression.evaluate e.toList with
      | .ok b => .ok ⟨[e ++ "  ⟹ " ++ String.ofList (keyword b)], false⟩
      | .error error => .error (.evaluation (.malformed error)) := by
  rw [Script.evaluateLine, if_pos (by simp [h])]
  cases Expression.evaluate e.toList with
  | ok b => exact congrArg Except.ok (closedBlock_eq e b)
  | error error => rfl

theorem evaluateLine_open (h : Expression.freeVariables e.toList ≠ []) :
    Script.evaluateLine e.toList = (TruthTable.build e none).map Script.tableBlock := by
  rw [Script.evaluateLine, if_neg (by simpa using h), String.ofList_toList]

theorem script_of_answer (h : answer.Of e) (hp : Plain e) :
    ∃ result, Script.Judged e.toList result ∧
      (Script.blockOf 1 result).output = answer.inScript e ∧
        (if Script.isRefused result then 1 else 0) = answer.code := by
  have hs := isSkipped_eq_false hp
  cases h with
  | value hclosed he =>
    refine ⟨.ok _, .printed hs ?_, rfl, rfl⟩
    rw [evaluateLine_closed hclosed, he]
    rfl
  | unreadable hclosed he =>
    refine ⟨.error _, .refused hs ?_, rfl, rfl⟩
    rw [evaluateLine_closed hclosed, he]
  | table hopen hb =>
    refine ⟨.ok _, .printed hs ?_, rfl, rfl⟩
    rw [evaluateLine_open hopen, hb, Except.map, Script.tableBlock, TruthTable.expression_of_build hb]
    rfl
  | untabulated hopen hb =>
    refine ⟨.error _, .refused hs ?_, rfl, rfl⟩
    rw [evaluateLine_open hopen, hb]
    rfl

theorem runFile_of_answer (h : answer.Of e) (hp : Plain e) (path : String) :
    Script.runFile path (some e.toUTF8) = .ok
      ⟨answer.code, Script.header path ++ answer.inScript e ++ ["", Script.footer answer.code]⟩ := by
  obtain ⟨result, hresult, houtput, hcode⟩ := script_of_answer h hp
  have hlines : Text.lines (Text.unifyNewlines e.toList) = [e.toList] := by
    rw [Text.unifyNewlines_of_not_mem hp.no_return, Text.lines_of_oneLine hp.oneLine hp.ne_nil]
  have hresults : Script.Results [e.toList] [result] := by
    refine .cons ?_ .nil
    rwa [hp.trimmed]
  have hrun := Script.runText_of_results (hlines ▸ hresults) path
  rw [Script.runFile, fromUTF8?_toUTF8, ← houtput, ← hcode, ← Script.reportOf_singleton]
  exact hrun

/-! ## The service -/

section Served

variable {F : Framework}

theorem respond_evaluate (hF : F.Documented) {r : F.Request} (h : F.Posts r .evaluate e)
    (s : Service) : (s.respond r).1 = F.deliver r (Service.evaluate e) := by
  have hc : F.call? r = some (.evaluate e) := hF.call?_of_posts rfl h
  rw [Service.respond_of_call hc]
  rfl

/-- What the service answers to a request that it evaluates. -/
inductive Answer.Served (e : String) : Answer → Reply → Prop where
  | value (b : Bool) : Served e (.value b)
      ⟨200, .object [("expression", .text e), ("result", .boolean b)]⟩
  | refused (error : SyntaxError) : Served e (.refused error)
      ⟨400, .object [("detail", .object [("stage", .text (Service.stage error)),
        ("kind", .text error.code), ("message", .text (Answer.refused error).text),
        ("pos", error.position?.elim .null fun place => .integer place)])]⟩

theorem served_of_answer (hF : F.Documented) (r : F.Request) (h : answer.Of e)
    (hclosed : Expression.freeVariables e.toList = []) :
    ∃ reply, answer.Served e reply ∧ F.Sends (F.deliver r (Service.evaluate e)) reply := by
  cases h with
  | value _ he =>
    refine ⟨_, .value _, ?_⟩
    rw [Service.evaluate, he]
    exact hF.returned r _
  | unreadable _ he =>
    refine ⟨_, .refused _, ?_⟩
    rw [Service.evaluate, he, Answer.text, ← Service.onMalformed_eq]
    exact hF.malformed r _
  | table hopen _ => exact absurd hclosed hopen
  | untabulated hopen _ => exact absurd hclosed hopen

end Served

/-! ## All of them -/

/-- The answer, as each tool gives it. -/
structure AnsweredEverywhere (F : Framework) (e : String) (settings : Settings) (answer : Answer) :
    Prop where
  commandLine : CommandLine.Answers settings (.evaluate e) answer.code answer.onCommandLine
  session : Session.run [some e] =
    .ok ⟨2, Session.banner :: answer.inSession ++ ["\n  Goodbye."]⟩
  script (path : String) : Script.runFile path (some e.toUTF8) = .ok
    ⟨answer.code, Script.header path ++ answer.inScript e ++ ["", Script.footer answer.code]⟩
  service {s : Service} {r : F.Request} : Expression.freeVariables e.toList = [] →
    F.Posts r .evaluate e → ∃ reply, answer.Served e reply ∧ F.Sends (s.respond r).1 reply

/-- Under settings that allow its table, a plain expression has one answer from all tools. -/
theorem answered_everywhere (F : Framework) (hF : F.Documented) (e : String) (settings : Settings)
    (hp : Plain e)
    (hl : ((Expression.freeVariables e.toList).length : Int) ≤ settings.maxVariables) :
    ∃ answer : Answer, answer.Of e ∧ AnsweredEverywhere F e settings answer := by
  obtain ⟨answer, h⟩ := exists_answer e
  refine ⟨answer, h, commandLine_of_answer h hl, run_session_of_answer h hp,
    runFile_of_answer h hp, fun hclosed hr => ?_⟩
  rw [respond_evaluate hF hr]
  exact served_of_answer hF _ h hclosed

theorem answered_everywhere_constant :
    Plain "A ↔ T" ∧ ((Expression.freeVariables "A ↔ T".toList).length : Int) ≤ 1 ∧
      CommandLine.Answers { maxVariables := 1 } (.evaluate "A ↔ T") 0
        ["A\tResult\nfalse\tfalse\ntrue\ttrue"] ∧
      Script.runFile "a.logic" (some "A ↔ T".toUTF8) = .ok
        ⟨0, ["∴ ─── Running: a.logic ───", "", "A ↔ T", "A\tResult\nfalse\tfalse\ntrue\ttrue",
          "DNF: (A)", "CNF: (A)", "", "", "∴ ─── Complete ───"]⟩ ∧
    Plain "¬F" ∧ ((Expression.freeVariables "¬F".toList).length : Int) ≤ 0 ∧
      Session.run [some "¬F"] = .ok ⟨2, [Session.banner,
        "  ⚠ Syntax Error: Unknown character 'F' at position 1", "\n  Goodbye."]⟩ ∧
      Framework.inProcess.Sends (Service.respond {} (InProcess.Request.mk "POST" "/api/evaluate"
          (some (.object [("expression", .text "¬F")])))).1
        ⟨400, .object [("detail", .object [("stage", .text "lex"), ("kind", .text "UNKNOWN_CHAR"),
          ("message", .text "Unknown character 'F' at position 1"), ("pos", .integer 1)])]⟩ := by
  have hp : Plain "A ↔ T" := ⟨by decide, by decide, by decide, by rfl, by decide, by rfl, by rfl,
    by rfl⟩
  have hl : ((Expression.freeVariables "A ↔ T".toList).length : Int) ≤ 1 := by decide
  have hb : TruthTable.build "A ↔ T" none = .ok ⟨"A ↔ T", ["A"],
      [⟨[("A", false)], false⟩, ⟨[("A", true)], true⟩]⟩ := by rfl
  have hp' : Plain "¬F" := ⟨by decide, by decide, by decide, by rfl, by decide, by rfl, by rfl,
    by rfl⟩
  have hl' : ((Expression.freeVariables "¬F".toList).length : Int) ≤ 0 := by decide
  have he : Expression.evaluate "¬F".toList = .error (.lexical (.unknownCharacter 'F' 1)) := by rfl
  have hm : (SyntaxError.lexical (.unknownCharacter 'F' 1)).message =
      "Unknown character 'F' at position 1" := by decide +kernel
  have hposts : Framework.inProcess.Posts (InProcess.Request.mk "POST" "/api/evaluate"
      (some (.object [("expression", .text "¬F")]))) .evaluate "¬F" := ⟨rfl, rfl, rfl⟩
  have hF := Framework.inProcess_documented
  obtain ⟨answer, h, htable⟩ := answered_everywhere .inProcess hF "A ↔ T" { maxVariables := 1 } hp hl
  obtain ⟨other, h', hrefused⟩ := answered_everywhere .inProcess hF "¬F" { maxVariables := 0 } hp' hl'
  obtain rfl := h.unique (.table (by decide) hb)
  obtain rfl := h'.unique (.unreadable (by decide) he)
  have hsession := hrefused.session
  obtain ⟨reply, hserved, hsends⟩ := hrefused.service (s := {}) (by decide) hposts
  simp only [Answer.inSession, Answer.text, hm] at hsession
  refine ⟨hp, hl, htable.commandLine, htable.script "a.logic", hp', hl', hsession, ?_⟩
  cases hserved
  rwa [Answer.text, hm] at hsends

end PlainExpression

end Sentential
