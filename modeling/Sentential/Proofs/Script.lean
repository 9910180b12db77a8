import Mathlib.Data.List.Forall2
import Mathlib.Logic.ExistsUnique
import Sentential.Proofs.Lines
import Sentential.Proofs.Uniformity
import Sentential.Script

/-!
# Scripts line by line

What a script makes of a line depends on the trimmed line alone. Only the report of a syntax error
also has the number of the line, which counts every line of the file. A run prints what its lines
come to, in their order, and its code and its last line tell how many of them failed.
-/
namespace Sentential.Script

/-! ## Lines -/

/-- What a trimmed line comes to: what is printed for it, or a syntax error. -/
inductive Judged : List Char → Except SyntaxError (List String) → Prop where
  | skipped {line : List Char} : isSkipped line = true → Judged line (.ok [])
  | printed {line : List Char} {output : List String} : isSkipped line = false →
      evaluateLine line = .ok ⟨output, false⟩ → Judged line (.ok output)
  | refused {line : List Char} {error : SyntaxError} : isSkipped line = false →
      evaluateLine line = .error (.evaluation (.malformed error)) → Judged line (.error error)

/-- The report on a line of a number. -/
def blockOf (number : Nat) : Except SyntaxError (List String) → Block
  | .ok output => ⟨output, false⟩
  | .error error => failedBlock number error

def isRefused : Except SyntaxError (List String) → Bool
  | .ok _ => false
  | .error _ => true

theorem failed_blockOf (number : Nat) (result : Except SyntaxError (List String)) :
    (blockOf number result).failed = isRefused result := by
  cases result <;> rfl

theorem evaluateLine_cases (line : List Char) :
    (∃ output, evaluateLine line = .ok ⟨output, false⟩) ∨
      ∃ error, evaluateLine line = .error (.evaluation (.malformed error)) := by
  unfold evaluateLine
  split
  · cases Expression.evaluate line with
    | ok value => exact .inl ⟨_, rfl⟩
    | error error => exact .inr ⟨error, rfl⟩
  · rcases TruthTable.build_ok_or_malformed (String.ofList line) with ⟨t, h⟩ | ⟨error, h⟩
    · rw [h]
      exact .inl ⟨_, rfl⟩
    · rw [h]
      exact .inr ⟨error, rfl⟩

variable {line raw : List Char} {result : Except SyntaxError (List String)}

theorem exists_judged (line : List Char) : ∃ result, Judged line result := by
  cases hs : isSkipped line with
  | true => exact ⟨_, .skipped hs⟩
  | false =>
    rcases evaluateLine_cases line with ⟨output, h⟩ | ⟨error, h⟩
    · exact ⟨_, .printed hs h⟩
    · exact ⟨_, .refused hs h⟩

theorem Judged.unique {other : Except SyntaxError (List String)} (h : Judged line result)
    (h' : Judged line other) : result = other := by
  cases h with
  | skipped hs =>
    cases h' with
    | skipped _ => rfl
    | printed hs' _ => simp [hs] at hs'
    | refused hs' _ => simp [hs] at hs'
  | printed hs he =>
    cases h' with
    | skipped hs' => simp [hs] at hs'
    | printed _ he' => simpa [he] using he'
    | refused _ he' => simp [he] at he'
  | refused hs he =>
    cases h' with
    | skipped hs' => simp [hs] at hs'
    | printed _ he' => simp [he] at he'
    | refused _ he' => simpa [he] using he'

theorem existsUnique_judged (line : List Char) : ∃! result, Judged line result := by
  obtain ⟨result, h⟩ := exists_judged line
  exact ⟨result, h, fun other hother => hother.unique h⟩

theorem block_of_judged (h : Judged (Text.trim raw) result) (number : Nat) :
    block number raw = .ok (blockOf number result) := by
  cases h with
  | skipped hs => simp only [block, hs, ↓reduceIte, blockOf]
  | printed hs he => simp only [block, hs, Bool.false_eq_true, ↓reduceIte, he, blockOf]
  | refused hs he => simp only [block, hs, Bool.false_eq_true, ↓reduceIte, he, blockOf]

/-! ## Files -/

/-- The lines come to these results, each line for itself. -/
def Results (raws : List (List Char)) (results : List (Except SyntaxError (List String))) : Prop :=
  List.Forall₂ (fun raw result => Judged (Text.trim raw) result) raws results

variable {raws : List (List Char)} {results : List (Except SyntaxError (List String))}

theorem exists_results (raws : List (List Char)) : ∃ results, Results raws results := by
  induction raws with
  | nil => exact ⟨[], .nil⟩
  | cons raw raws ih =>
    obtain ⟨result, h⟩ := exists_judged (Text.trim raw)
    obtain ⟨results, hresults⟩ := ih
    exact ⟨result :: results, .cons h hresults⟩

theorem Results.unique {others : List (Except SyntaxError (List String))}
    (h : Results raws results) (h' : Results raws others) : results = others :=
  List.right_unique_forall₂' (fun _ _ _ h h' => h.unique h') h h'

theorem blocks_of_results (h : Results raws results) (number : Nat) :
    blocks number raws = ((results.zipIdx number).map fun r => blockOf r.2 r.1, none) := by
  induction h generalizing number with
  | nil => rfl
  | cons hr _ ih => rw [blocks, block_of_judged hr, ih, List.zipIdx_cons, List.map_cons]

theorem failures_of_results (results : List (Except SyntaxError (List String))) (number : Nat) :
    failures ((results.zipIdx number).map fun r => blockOf r.2 r.1) =
      results.countP isRefused := by
  have hfst := congrArg (List.countP isRefused) (List.zipIdx_map_fst number results)
  rw [List.countP_map] at hfst
  rw [failures, List.countP_map, ← hfst]
  exact List.countP_congr fun r _ => by simp [failed_blockOf]

/-- The report on a file with these results, the first of them that of line 1. -/
def reportOf (path : String) (results : List (Except SyntaxError (List String))) : Report where
  code := if results.countP isRefused = 0 then 0 else 1
  output := header path ++ (results.zipIdx 1).flatMap (fun r => (blockOf r.2 r.1).output) ++
    ["", footer (results.countP isRefused)]

theorem reportOf_singleton (path : String) (result : Except SyntaxError (List String)) :
    reportOf path [result] =
      { code := if isRefused result then 1 else 0,
        output := header path ++ (blockOf 1 result).output ++
          ["", footer (if isRefused result then 1 else 0)] } := by
  cases result <;> simp [reportOf, isRefused]

theorem runText_of_results {text : List Char}
    (h : Results (Text.lines (Text.unifyNewlines text)) results) (path : String) :
    runText path text = .ok (reportOf path results) := by
  rw [runText, blocks_of_results h]
  simp only [report, printed, failures_of_results, List.flatMap_map]
  rfl

/-- A file that decodes has a report: what its lines come to, each line for itself, with the code
and the footer that the number of refused lines gives. Of a file that does not decode nothing is
printed. -/
theorem runFile_lineByLine (path : String) (bytes : ByteArray) :
    (String.fromUTF8? bytes = none →
      runFile path (some bytes) = .error { cause := .undecodable, output := [] }) ∧
    (∀ text, String.fromUTF8? bytes = some text →
      ∃ raws results, Text.Lined (Text.unifyNewlines text.toList) raws ∧ Results raws results ∧
        runFile path (some bytes) = .ok (reportOf path results)) ∧
    ∀ line, ∃! result, Judged line result := by
  refine ⟨fun h => ?_, fun text h => ?_, existsUnique_judged⟩
  · rw [runFile, h]
  · obtain ⟨results, hresults⟩ := exists_results (Text.lines (Text.unifyNewlines text.toList))
    refine ⟨_, results, Text.lined_lines _, hresults, ?_⟩
    rw [runFile, h]
    exact runText_of_results hresults path

theorem runFile_lineByLine_refusal :
    String.fromUTF8? "# note\rA∧\x0b\n  true\t".toUTF8 = some "# note\rA∧\x0b\n  true\t" ∧
      runFile "notes/a.logic" (some "# note\rA∧\x0b\n  true\t".toUTF8) = .ok
        { code := 1,
          output := ["∴ ─── Running: a.logic ───", "",
            "⚠ L2: Syntax Error: Expected an operand at end of input", "true  ⟹ true", "",
            "∴ ─── 1 line(s) failed ───"] } ∧
      String.fromUTF8? ⟨#[0xff]⟩ = none ∧
      runFile "notes/a.logic" (some ⟨#[0xff]⟩) = .error { cause := .undecodable, output := [] } := by
  have hbytes : String.fromUTF8? ⟨#[0xff]⟩ = none := by decide
  have htext : String.fromUTF8? "# note\rA∧\x0b\n  true\t".toUTF8 =
      some "# note\rA∧\x0b\n  true\t" := by rfl
  refine ⟨htext, ?_, hbytes, (runFile_lineByLine _ _).1 hbytes⟩
  obtain ⟨raws, results, hraws, hresults, hrun⟩ :=
    (runFile_lineByLine "notes/a.logic" _).2.1 _ htext
  have hlines : Results raws [.ok [], .error (.grammatical .operandExpected), .ok [],
      .ok ["true  ⟹ true"]] := by
    rw [Text.lined_iff.mp hraws]
    exact .cons (.skipped (by rfl)) (.cons (.refused (by rfl) (by rfl))
      (.cons (.skipped (by rfl)) (.cons (.printed (by rfl) (by rfl)) .nil)))
  rw [hrun, hresults.unique hlines]
  rfl

end Sentential.Script
