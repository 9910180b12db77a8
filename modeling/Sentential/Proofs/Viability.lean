import Mathlib.Order.Bounds.Basic
import Sentential.Proofs.Outline
import Sentential.Proofs.Sharing

/-!
# Where a reading fails

A word is viable if it begins some expression. The reader gets through exactly the viable words:
from any outline an operand, if one is due, and the brackets that are missing make an expression. So
it stops in front of the first token that fits no continuation, or at the end, where it misses
closing brackets if these alone would complete the word, and an operand otherwise. The openings of
its groups are the brackets that have no partner yet.
-/
namespace Sentential

namespace Parser

variable {α : Type}

/-! ## Words that can be continued -/

def Viable (w : List (Lexeme α)) : Prop := ∃ more f, Derives .expression (w ++ more) f

/-- Some closing brackets make the word an expression. -/
def Closable (w : List (Lexeme α)) : Prop :=
  ∃ k, 0 < k ∧ ∃ f, Derives .expression (w ++ List.replicate k (.bracket .right)) f

theorem Viable.of_append {u w : List (Lexeme α)} (h : Viable (u ++ w)) : Viable u := by
  obtain ⟨more, f, hd⟩ := h
  exact ⟨w ++ more, f, by rwa [← List.append_assoc]⟩

theorem Outline.run_closing_iff {o : Outline} {k : Nat} :
    o.run (List.replicate k (.bracket .right : Lexeme α)) = some .complete ↔
      o = ⟨k, .operator⟩ := by
  induction k generalizing o with
  | zero => exact Option.some_inj
  | succ k ih =>
    obtain ⟨depth, turn⟩ := o
    cases turn with
    | operand => simp [List.replicate_succ, run, step]
    | operator =>
      cases depth with
      | zero => simp [List.replicate_succ, run, step]
      | succ depth => simpa [List.replicate_succ, run, step] using ih (o := ⟨depth, .operator⟩)

theorem closable_iff {w : List (Lexeme α)} :
    Closable w ↔ ∃ k, 0 < k ∧ Outline.run {} w = some ⟨k, .operator⟩ := by
  refine exists_congr fun k => and_congr_right fun _ => ?_
  rw [exists_derives_iff, Outline.run_append, Option.bind_eq_some_iff]
  simp only [Outline.run_closing_iff, exists_eq_right]

theorem viable_iff [Inhabited α] {w : List (Lexeme α)} :
    Viable w ↔ ∃ o, Outline.run {} w = some o := by
  constructor
  · rintro ⟨more, hd⟩
    rw [exists_derives_iff, Outline.run_append, Option.bind_eq_some_iff] at hd
    obtain ⟨o, ho, -⟩ := hd
    exact ⟨o, ho⟩
  · rintro ⟨⟨depth, turn⟩, ho⟩
    have hclosing : Outline.run ⟨depth, .operator⟩
        (List.replicate depth (.bracket .right : Lexeme α)) = some .complete :=
      Outline.run_closing_iff.mpr rfl
    cases turn with
    | operand =>
      refine ⟨.operand default :: List.replicate depth (.bracket .right), ?_⟩
      rw [exists_derives_iff, Outline.run_append, ho]
      exact hclosing
    | operator =>
      refine ⟨List.replicate depth (.bracket .right), ?_⟩
      rw [exists_derives_iff, Outline.run_append, ho]
      exact hclosing

/-! ## Brackets without a partner -/

/-- The opening brackets that wait for a partner, the last one first, after one more token. -/
def track (waiting : List (Token α)) (token : Token α) : List (Token α) :=
  match token.lexeme with
  | .bracket .left => token :: waiting
  | .bracket .right => waiting.tail
  | _ => waiting

/-- The opening brackets of some tokens that have no partner among them, the last one first. -/
def unmatched (tokens : List (Token α)) : List (Token α) := tokens.foldl track []

theorem Moves.openings {s t : State α} {token : Token α} {waiting : List (Token α)}
    (h : Moves s token t) (hs : s.groups.map Group.opening = waiting.map Token.position) :
    t.groups.map Group.opening = (track waiting token).map Token.position := by
  cases h with
  | operand => exact hs
  | negation => exact hs
  | opening => exact congrArg (_ :: ·) hs
  | operator => exact hs
  | closing =>
    rw [track, List.map_tail, ← hs]
    rfl

theorem Passes.openings {s t : State α} {tokens waiting : List (Token α)}
    (h : Passes s tokens t) (hs : s.groups.map Group.opening = waiting.map Token.position) :
    t.groups.map Group.opening = (tokens.foldl track waiting).map Token.position := by
  induction h generalizing waiting with
  | refl => exact hs
  | move hm _ ih => exact ih (hm.openings hs)

/-! ## States that refuse what comes next -/

theorem Passes.outline {s t : State α} {tokens : List (Token α)} (h : Passes s tokens t) :
    s.outline.run (tokens.map Token.lexeme) = some t.outline := by
  induction h with
  | refl => rfl
  | move hm _ ih =>
    rw [List.map_cons, Outline.run, State.outline_step, step_eq_ok_iff.mpr hm]
    exact ih

/-- The state fails with the error at the next token, or at the end of the input if there is none.
-/
def State.Refuses (s : State α) (e : GrammarError α) : Option (Token α) → Prop
  | none => s.finish = .error e
  | some token => s.step token = .error e

theorem viable_of_passes [Inhabited α] {s : State α} {tokens : List (Token α)}
    (h : Passes {} tokens s) : Viable (tokens.map Token.lexeme) :=
  viable_iff.mpr ⟨_, h.outline⟩

theorem not_viable_of_step [Inhabited α] {s : State α} {tokens : List (Token α)} {token : Token α}
    {e : GrammarError α} (h : Passes {} tokens s) (he : s.step token = .error e) :
    ¬Viable ((tokens ++ [token]).map Token.lexeme) := by
  intro hv
  obtain ⟨o, ho⟩ := viable_iff.mp hv
  have hstart : Outline.run {} (tokens.map Token.lexeme) = some s.outline := h.outline
  rw [List.map_append, Outline.run_append, hstart, Option.bind_some, List.map_singleton,
    Outline.run, State.outline_step, he] at ho
  cases ho

/-- At the end an operand is missing, which no bracket can stand for, or brackets are, and then the
error names the last one that is open. -/
theorem finish_of_passes {s : State α} {tokens : List (Token α)} {e : GrammarError α}
    (h : Passes {} tokens s) (he : s.finish = .error e) :
    e = .operandExpected ∧ ¬Closable (tokens.map Token.lexeme) ∨
      ∃ opening, (unmatched tokens).head? = some opening ∧ e = .unclosed opening.position ∧
        Closable (tokens.map Token.lexeme) := by
  have houtline : Outline.run {} (tokens.map Token.lexeme) = some s.outline := h.outline
  have hopenings : s.groups.map Group.opening = (unmatched tokens).map Token.position :=
    h.openings rfl
  obtain ⟨groups, level, expects⟩ := s
  cases expects with
  | operand =>
    refine .inl ⟨(Except.error.inj he).symm, fun hc => ?_⟩
    obtain ⟨k, -, hk⟩ := closable_iff.mp hc
    rw [houtline] at hk
    cases hk
  | operator term =>
    cases groups with
    | nil => cases he
    | cons group groups =>
      obtain ⟨opening, rest, hu, hopening, -⟩ := List.map_eq_cons_iff.mp hopenings.symm
      refine .inr ⟨opening, by rw [hu, List.head?_cons], ?_, ?_⟩
      · rw [hopening]
        exact (Except.error.inj he).symm
      · exact closable_iff.mpr ⟨groups.length + 1, Nat.succ_pos _, houtline⟩

end Parser

/-! ## Tokens that are refused -/

namespace TokenStream

open Cursor (Takes)
open Sentential.Parser (Closable Passes State Viable unmatched)

theorem parseFrom_refuses {state : State Bool} {s t : TokenStream} {e : GrammarError Bool}
    (h : parseFrom state s = (.error e, t)) :
    ∃ taken last, Takes s taken t ∧ Passes state taken last ∧ last.Refuses e t.peek := by
  fun_induction parseFrom state s with
  | case1 state s hp =>
    obtain ⟨he, rfl⟩ := Prod.mk.inj h
    exact ⟨[], state, .refl, .refl, by rwa [hp]⟩
  | case2 state s token hp next hstep ih =>
    obtain ⟨taken, last, htakes, hpasses, hrefuses⟩ := ih h
    exact ⟨token :: taken, last, .of_peek hp htakes,
      .move (Parser.step_eq_ok_iff.mp hstep) hpasses, hrefuses⟩
  | case3 state s token hp e' hstep =>
    obtain ⟨he, rfl⟩ := Prod.mk.inj h
    obtain rfl := Except.error.inj he
    exact ⟨[], state, .refl, .refl, by rwa [hp]⟩

/-- What the error says, if so many of the tokens begin an expression and no more do. -/
structure Fault (tokens : List (Token Bool)) (n : Nat) (e : GrammarError Bool) : Prop where
  atToken : ∀ h : n < tokens.length, e.code = "UNMATCHED_TOKEN" ∧
    e.position? = some tokens[n].position ∧ e = .unexpected tokens[n]
  atEnd : n = tokens.length → e.position? = none ∧
    (e.code = "MISSING_BRACKET" ↔ Closable (tokens.map Token.lexeme))
  unclosed : n = tokens.length → Closable (tokens.map Token.lexeme) →
    ∃ opening, (unmatched tokens).head? = some opening ∧
      e.message = "Bracket opened at position " ++ toString opening.position ++
        " is never closed at end of input"
  operandExpected : n = tokens.length → ¬Closable (tokens.map Token.lexeme) →
    e.code = "UNMATCHED_TOKEN" ∧ e.message = "Expected an operand at end of input"

theorem fault_atToken {tokens : List (Token Bool)} {n : Nat} (h : n < tokens.length) :
    Fault tokens n (.unexpected tokens[n]) where
  atToken _ := ⟨rfl, rfl, rfl⟩
  atEnd hn := absurd hn h.ne
  unclosed hn := absurd hn h.ne
  operandExpected hn := absurd hn h.ne

theorem message_unclosed (opening : Nat) :
    (GrammarError.unclosed opening).message =
      "Bracket opened at position " ++ toString opening ++ " is never closed at end of input" := by
  have htail : " is never closed" ++ (" at " ++ "end of input") =
      " is never closed at end of input" := by decide
  -- For any texts, since rewriting would compare these letter by letter.
  have hassoc (a b c d : String) : a ++ b ++ c ++ d = a ++ (b ++ (c ++ d)) := by
    rw [String.append_assoc, String.append_assoc]
  calc
    (GrammarError.unclosed opening).message
    _ = "Bracket opened at position " ++ toString opening ++ " is never closed" ++ " at " ++
          "end of input" := rfl
    _ = "Bracket opened at position " ++ toString opening ++
          (" is never closed" ++ (" at " ++ "end of input")) := hassoc _ _ _ _
    _ = "Bracket opened at position " ++ toString opening ++
          " is never closed at end of input" := congrArg (_ ++ ·) htail

theorem fault_atEnd {tokens : List (Token Bool)} {s : State Bool} {e : GrammarError Bool}
    (h : Passes {} tokens s) (he : s.finish = .error e) : Fault tokens tokens.length e := by
  rcases Parser.finish_of_passes h he with ⟨rfl, hopen⟩ | ⟨opening, hhead, rfl, hclosable⟩
  · exact {
      atToken := fun hn => absurd hn (Nat.lt_irrefl _)
      atEnd := fun _ => ⟨rfl, iff_of_false (by decide) hopen⟩
      unclosed := fun _ hc => absurd hc hopen
      operandExpected := fun _ _ => ⟨rfl, rfl⟩ }
  · exact {
      atToken := fun hn => absurd hn (Nat.lt_irrefl _)
      atEnd := fun _ => ⟨rfl, iff_of_true rfl hclosable⟩
      unclosed := fun _ _ => ⟨opening, hhead, message_unclosed opening.position⟩
      operandExpected := fun _ hn => absurd hclosable hn }

theorem isGreatest_viable {taken more : List (Token Bool)} {s : State Bool} {e : GrammarError Bool}
    (h : Passes {} taken s) (he : s.Refuses e more.head?) :
    IsGreatest {k | k ≤ (taken ++ more).length ∧
      Viable (((taken ++ more).take k).map Token.lexeme)} taken.length := by
  refine ⟨⟨by simp, ?_⟩, ?_⟩
  · rw [List.take_left]
    exact Parser.viable_of_passes h
  · rintro k ⟨hk, hviable⟩
    cases more with
    | nil => simpa using hk
    | cons token more =>
      by_contra hlt
      obtain ⟨j, rfl⟩ := Nat.exists_eq_add_of_lt (Nat.lt_of_not_le hlt)
      have htake : (taken ++ token :: more).take (taken.length + j + 1) =
          taken ++ [token] ++ more.take j := by
        rw [Nat.add_assoc, List.take_length_add_append, List.take_succ_cons, List.append_cons]
      rw [htake, List.map_append] at hviable
      exact Parser.not_viable_of_step h he hviable.of_append

theorem fault_of_refuses {taken more : List (Token Bool)} {s : State Bool} {e : GrammarError Bool}
    (h : Passes {} taken s) (he : s.Refuses e more.head?) :
    Fault (taken ++ more) taken.length e := by
  cases more with
  | nil =>
    rw [List.append_nil]
    exact fault_atEnd h he
  | cons token more =>
    obtain rfl := Parser.State.eq_unexpected_of_step he
    have hlt : taken.length < (taken ++ token :: more).length := by simp
    have htoken : (taken ++ token :: more)[taken.length] = token := by simp
    have hfault := fault_atToken hlt
    rwa [htoken] at hfault

/-- A parse that fails has taken the longest beginning of the tokens that some expression has. If a
token stands behind, that token is at fault. Otherwise brackets are missing, of which the error
names the last one that is open, or an operand is. -/
theorem parse_fault (tokens : List (Token Bool)) (e : GrammarError Bool) (t : TokenStream)
    (h : parse ⟨tokens, 0⟩ = (.error e, t)) :
    ∃ n, IsGreatest {k | k ≤ tokens.length ∧ Viable ((tokens.take k).map Token.lexeme)} n ∧
      t = ⟨tokens, n⟩ ∧ Fault tokens n e := by
  obtain ⟨taken, last, htakes, hpasses, hrefuses⟩ := parseFrom_refuses h
  have hrest : tokens = taken ++ t.rest := htakes.rest_eq
  have hplace : t = ⟨tokens, taken.length⟩ := by
    obtain ⟨items, position⟩ := t
    rw [Cursor.mk.injEq]
    exact ⟨htakes.items_eq, htakes.position_eq.trans (Nat.zero_add _)⟩
  rw [← Cursor.head?_rest] at hrefuses
  have hgreatest := isGreatest_viable hpasses hrefuses
  have hfault := fault_of_refuses hpasses hrefuses
  rw [← hrest] at hgreatest hfault
  exact ⟨taken.length, hgreatest, hplace, hfault⟩

/-- An open group that begins with the conjunction of a closed group and a second open one. -/
def openGroups : List (Token Bool) :=
  [⟨.bracket .left, 0⟩, ⟨.bracket .left, 1⟩, ⟨.operand true, 2⟩, ⟨.bracket .right, 6⟩,
    ⟨.operator (.binary .conjunction), 7⟩, ⟨.bracket .left, 8⟩, ⟨.operand false, 9⟩]

theorem parse_fault_openGroups :
    ∃ t, parse ⟨openGroups, 0⟩ = (.error (.unclosed 8), t) ∧
      IsGreatest {k | k ≤ openGroups.length ∧
        Viable ((openGroups.take k).map Token.lexeme)} 7 ∧
      t = ⟨openGroups, 7⟩ ∧ Fault openGroups 7 (.unclosed 8) := by
  have h : parse ⟨openGroups, 0⟩ = (.error (.unclosed 8), (parse ⟨openGroups, 0⟩).2) :=
    Prod.ext (parseFrom_result {} ⟨openGroups, 0⟩) rfl
  obtain ⟨n, hn, ht, hfault⟩ := parse_fault openGroups _ _ h
  obtain rfl : n = 7 := by
    refine Nat.le_antisymm hn.1.1 (Nat.le_of_not_lt fun hlt => ?_)
    obtain ⟨-, hposition, -⟩ := hfault.atToken hlt
    cases hposition
  exact ⟨_, h, hn, ht, hfault⟩

end TokenStream

end Sentential
