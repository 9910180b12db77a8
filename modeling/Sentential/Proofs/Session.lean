import Mathlib.Data.List.Forall2
import Mathlib.Logic.ExistsUnique
import Sentential.Proofs.Message
import Sentential.Proofs.Uniformity
import Sentential.Session

/-!
# Sessions that last

A reply is printed as a whole, or it is a syntax error and nothing is printed before it. So the only
errors that a session meets are those that it answers, and nothing ends it but the end of its input,
an interrupt or a line that says so. Each line before is answered for itself.
-/
namespace Sentential.Session

/-! ## Replies -/

/-- The reply is printed as a whole, or it is a syntax error and nothing is printed. -/
inductive Reply.Whole : Reply → Prop where
  | printed (output : List String) : Whole ⟨output, none⟩
  | refused (error : SyntaxError) : Whole ⟨[], some (.evaluation (.malformed error))⟩

theorem closedReply_whole (result : Except SyntaxError (List Char)) :
    (closedReply result).Whole := by
  cases result with
  | ok answer => exact .printed _
  | error error => exact .refused error

theorem tableReply_whole (expression : List Char) (print : TruthTable → List String) :
    (tableReply expression print).Whole := by
  rcases TruthTable.build_ok_or_malformed (String.ofList expression) with ⟨t, h⟩ | ⟨error, h⟩
  · rw [tableReply, h]
    exact .printed _
  · rw [tableReply, h]
    exact .refused error

theorem expressionReply_whole (line : List Char) : (expressionReply line).Whole := by
  unfold expressionReply
  split
  · exact closedReply_whole _
  · exact tableReply_whole line _

theorem reply_whole (line : List Char) : (reply line).Whole := by
  unfold reply
  split
  · exact closedReply_whole _
  · exact tableReply_whole _ _
  · exact tableReply_whole _ _
  · exact expressionReply_whole line

/-! ## Lines -/

/-- The trimmed line tells a session to stop, in any case. -/
def SaysStop (line : List Char) : Prop :=
  Text.lower line = "exit".toList ∨ Text.lower line = "quit".toList

/-- The trimmed line asks for help, in any case. -/
def AsksHelp (line : List Char) : Prop := Text.lower line = "help".toList

theorem isStop_iff {line : List Char} : isStop line = true ↔ SaysStop line := by
  rw [isStop, SaysStop, Bool.or_eq_true, beq_iff_eq, beq_iff_eq]

theorem isHelp_iff {line : List Char} : isHelp line = true ↔ AsksHelp line := by
  rw [isHelp, AsksHelp, beq_iff_eq]

theorem isStop_eq_false_iff {line : List Char} : isStop line = false ↔ ¬SaysStop line := by
  rw [← isStop_iff, Bool.not_eq_true]

theorem isHelp_eq_false_iff {line : List Char} : isHelp line = false ↔ ¬AsksHelp line := by
  rw [← isHelp_iff, Bool.not_eq_true]

/-- What a session prints for a trimmed line that does not stop it. -/
inductive Answers : List Char → List String → Prop where
  | blank : Answers [] []
  | help {line : List Char} : AsksHelp line → Answers line [Operator.reference, Session.help]
  | printed {line : List Char} {output : List String} : line ≠ [] → ¬AsksHelp line →
      reply line = ⟨output, none⟩ → Answers line output
  | refused {line : List Char} {error : SyntaxError} : line ≠ [] → ¬AsksHelp line →
      reply line = ⟨[], some (.evaluation (.malformed error))⟩ →
        Answers line ["  ⚠ Syntax Error: " ++ error.message]

variable {line : List Char} {output : List String}

theorem block_of_answers (h : Answers line output) : block line = .ok output := by
  cases h with
  | blank => rfl
  | help hh =>
    have hne : line ≠ [] := by
      rintro rfl
      exact absurd hh nofun
    rw [block, if_neg (by simpa using hne), if_pos (isHelp_iff.mpr hh)]
  | printed hne hh hr => rw [block, if_neg (by simpa using hne), if_neg (mt isHelp_iff.mp hh), hr]
  | refused hne hh hr =>
    rw [block, if_neg (by simpa using hne), if_neg (mt isHelp_iff.mp hh), hr]
    rfl

theorem exists_answers (line : List Char) : ∃ output, Answers line output := by
  cases line with
  | nil => exact ⟨[], .blank⟩
  | cons c line =>
    have hne := List.cons_ne_nil c line
    by_cases hh : AsksHelp (c :: line)
    · exact ⟨_, .help hh⟩
    · have hwhole := reply_whole (c :: line)
      generalize hr : reply (c :: line) = r at hwhole
      cases hwhole with
      | printed output => exact ⟨output, .printed hne hh hr⟩
      | refused error => exact ⟨_, .refused hne hh hr⟩

theorem existsUnique_answers (line : List Char) : ∃! output, Answers line output := by
  obtain ⟨output, h⟩ := exists_answers line
  refine ⟨output, h, fun other hother => ?_⟩
  exact Except.ok.inj ((block_of_answers hother).symm.trans (block_of_answers h))

theorem refusal_oneLine (error : SyntaxError) :
    Text.OneLine ("  ⚠ Syntax Error: " ++ error.message).toList := by
  have hfront : Text.OneLine "  ⚠ Syntax Error: ".toList := by decide
  rw [String.toList_append]
  exact List.forall_mem_append.mpr ⟨hfront, error.printable_message.oneLine⟩

/-! ## Whole sessions -/

/-- What a session says in the end, when these inputs are left. -/
inductive Parting : List (Option String) → String → Prop where
  | endOfInput : Parting [] "\n  Goodbye."
  | interrupt {later : List (Option String)} : Parting (none :: later) "\n  Goodbye."
  | stop {line : String} {later : List (Option String)} :
      SaysStop (Text.trim line.toList) → Parting (some line :: later) "  Goodbye."

/-- The inputs are lines, each with what the session answers to it, and then what ends it. -/
structure Held (inputs : List (Option String)) (lines : List String)
    (blocks : List (List String)) (goodbye : String) : Prop where
  inputs_eq : ∃ rest, inputs = lines.map some ++ rest ∧ Parting rest goodbye
  goesOn : ∀ line ∈ lines, ¬SaysStop (Text.trim line.toList)
  answers : List.Forall₂ (fun line block => Answers (Text.trim line.toList) block) lines blocks

theorem Parting.held {inputs : List (Option String)} {goodbye : String}
    (h : Parting inputs goodbye) : Held inputs [] [] goodbye :=
  ⟨⟨inputs, rfl, h⟩, nofun, .nil⟩

theorem Held.cons {inputs : List (Option String)} {lines : List String}
    {blocks : List (List String)} {goodbye line : String} {block : List String}
    (h : Held inputs lines blocks goodbye) (hline : ¬SaysStop (Text.trim line.toList))
    (hblock : Answers (Text.trim line.toList) block) :
    Held (some line :: inputs) (line :: lines) (block :: blocks) goodbye := by
  obtain ⟨⟨rest, rfl, hrest⟩, hgoes, hanswers⟩ := h
  exact ⟨⟨rest, rfl, hrest⟩, List.forall_mem_cons.mpr ⟨hline, hgoes⟩, .cons hblock hanswers⟩

theorem exists_held (inputs : List (Option String)) :
    ∃ lines blocks goodbye, Held inputs lines blocks goodbye := by
  induction inputs with
  | nil => exact ⟨[], [], _, Parting.endOfInput.held⟩
  | cons input more ih =>
    cases input with
    | none => exact ⟨[], [], _, Parting.interrupt.held⟩
    | some line =>
      by_cases hs : SaysStop (Text.trim line.toList)
      · exact ⟨[], [], _, (Parting.stop hs).held⟩
      · obtain ⟨block, hblock⟩ := exists_answers (Text.trim line.toList)
        obtain ⟨lines, blocks, goodbye, h⟩ := ih
        exact ⟨line :: lines, block :: blocks, goodbye, h.cons hs hblock⟩

theorem converse_of_parting {inputs : List (Option String)} {goodbye : String}
    (h : Parting inputs goodbye) : converse inputs = .ok ⟨1, [goodbye]⟩ := by
  cases h with
  | endOfInput => rfl
  | interrupt => rfl
  | stop hs => exact if_pos (isStop_iff.mpr hs)

theorem converse_of_answers {inputs : List (Option String)} {line : String} {block : List String}
    {t : Transcript} (hline : ¬SaysStop (Text.trim line.toList))
    (hblock : Answers (Text.trim line.toList) block) (h : converse inputs = .ok t) :
    converse (some line :: inputs) = .ok ⟨t.prompts + 1, block ++ t.output⟩ := by
  simp only [converse, if_neg (mt isStop_iff.mp hline), block_of_answers hblock, h]

theorem converse_of_held {inputs : List (Option String)} {lines : List String}
    {blocks : List (List String)} {goodbye : String} (h : Held inputs lines blocks goodbye) :
    converse inputs = .ok ⟨lines.length + 1, blocks.flatten ++ [goodbye]⟩ := by
  obtain ⟨⟨rest, rfl, hrest⟩, hgoes, hanswers⟩ := h
  induction hanswers with
  | nil => exact converse_of_parting hrest
  | cons hblock _ ih =>
    obtain ⟨hline, hgoes⟩ := List.forall_mem_cons.mp hgoes
    rw [List.map_cons, List.cons_append, converse_of_answers hline hblock (ih hgoes),
      List.flatten_cons, List.append_assoc]
    rfl

/-- Whatever the inputs, a session comes to its end. It reads up to the first input that ends it,
prints a block for each line before, which depends on nothing but that line, and says goodbye. A
line that is no expression is answered by one line. -/
theorem run_survives (inputs : List (Option String)) :
    (∃ lines blocks goodbye, Held inputs lines blocks goodbye ∧
      run inputs = .ok ⟨lines.length + 1, banner :: blocks.flatten ++ [goodbye]⟩) ∧
    (∀ line, ∃! block, Answers line block) ∧
    ∀ error : SyntaxError, Text.OneLine ("  ⚠ Syntax Error: " ++ error.message).toList := by
  refine ⟨?_, existsUnique_answers, refusal_oneLine⟩
  obtain ⟨lines, blocks, goodbye, h⟩ := exists_held inputs
  refine ⟨lines, blocks, goodbye, h, ?_⟩
  rw [run, converse_of_held h]
  rfl

example : run [some "\t HeLP ", some " ¬false", some "\u3000QuIt\n", some "true"] =
    .ok ⟨3, [banner, Operator.reference, help, "  ⟹ true", "  Goodbye."]⟩ := by
  rfl

end Sentential.Session
