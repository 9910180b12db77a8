import Sentential.Proofs.Parsing

/-!
# The outline of a reading

Whether a token fits depends on little of what the reader holds: how many brackets are open, and
whether an operand or an operator comes next. This outline alone tells which words are expressions.
A phrase takes it from the one turn to the other at the depth where it began, whatever the depth,
and no factor begins where an operator has to come.
-/
namespace Sentential.Parser

variable {α : Type}

inductive Turn where
  | operand
  | operator
  deriving DecidableEq, Repr

structure Outline where
  depth : Nat := 0
  turn : Turn := .operand
  deriving DecidableEq, Repr

namespace Outline

def step (o : Outline) (l : Lexeme α) : Option Outline :=
  match o.turn, l with
  | .operand, .operand _ => some ⟨o.depth, .operator⟩
  | .operand, .operator .negation => some ⟨o.depth, .operand⟩
  | .operand, .bracket .left => some ⟨o.depth + 1, .operand⟩
  | .operator, .operator (.binary _) => some ⟨o.depth, .operand⟩
  | .operator, .bracket .right =>
    match o.depth with
    | 0 => none
    | depth + 1 => some ⟨depth, .operator⟩
  | _, _ => none

def run (o : Outline) : List (Lexeme α) → Option Outline
  | [] => some o
  | l :: more => (o.step l).bind fun next => next.run more

/-- Nothing is open and an operand is complete. -/
def complete : Outline := ⟨0, .operator⟩

theorem run_append (o : Outline) (u w : List (Lexeme α)) :
    o.run (u ++ w) = (o.run u).bind fun next => next.run w := by
  induction u generalizing o with
  | nil => rfl
  | cons l u ih =>
    simp only [List.cons_append, run, Option.bind_assoc, ih]

theorem run_of_derives {c : Category} {w : List (Lexeme α)} {f : Formula α} (h : Derives c w f)
    (depth : Nat) : run ⟨depth, .operand⟩ w = some ⟨depth, .operator⟩ := by
  induction h using Derives.chainInduction generalizing depth with
  | single _ ih => exact ih depth
  | extend _ _ ihv ihw =>
    rw [run_append, ihv depth]
    exact ihw depth
  | negation _ ih => exact ih depth
  | operand value => rfl
  | group _ ih =>
    have hinner := ih (depth + 1)
    rw [List.cons_append, run]
    simp only [step, Option.bind_some, run_append, hinner, run]

theorem run_operator_of_factor {w : List (Lexeme α)} {f : Formula α} (h : Derives .factor w f)
    (depth : Nat) (rest : List (Lexeme α)) : run ⟨depth, .operator⟩ (w ++ rest) = none := by
  cases h <;> rfl

end Outline

/-! ## States by their outline -/

def Expectation.turn : Expectation α → Turn
  | .operand => .operand
  | .operator _ => .operator

def State.outline (s : State α) : Outline := ⟨s.groups.length, s.expects.turn⟩

theorem State.outline_step (s : State α) (token : Token α) :
    s.outline.step token.lexeme = (s.step token).toOption.map State.outline := by
  obtain ⟨groups, level, expects⟩ := s
  obtain ⟨lexeme, position⟩ := token
  cases expects with
  | operand => rcases lexeme with value | (_ | op) | (_ | _) <;> rfl
  | operator term =>
    rcases lexeme with value | (_ | op) | (_ | _)
    · rfl
    · rfl
    · rfl
    · rfl
    · cases groups <;> rfl

theorem State.exists_finish_iff (s : State α) :
    (∃ f, s.finish = .ok f) ↔ s.outline = .complete := by
  obtain ⟨groups, level, expects⟩ := s
  cases expects <;> cases groups <;>
    simp [finish, outline, Expectation.turn, Outline.complete]

/-- Reading succeeds exactly if the outline is complete in the end. -/
theorem exists_run_iff (s : State α) (tokens : List (Token α)) :
    (∃ f, run s tokens = .ok f) ↔
      s.outline.run (tokens.map Token.lexeme) = some .complete := by
  induction tokens generalizing s with
  | nil =>
    rw [List.map_nil, Outline.run, Option.some.injEq, ← State.exists_finish_iff, run]
    cases s.finish <;> simp
  | cons token tokens ih =>
    rw [List.map_cons, Outline.run, State.outline_step, run]
    cases s.step token with
    | error e => simp [Except.toOption]
    | ok t => exact ih t

theorem exists_derives_iff {w : List (Lexeme α)} :
    (∃ f, Derives .expression w f) ↔ Outline.run {} w = some .complete := by
  obtain ⟨tokens, rfl⟩ := exists_tokens w
  simp only [← parse_eq_ok_iff]
  exact exists_run_iff {} tokens

end Sentential.Parser
