import Sentential.Formula.Parser
import Sentential.Proofs.Lexing

/-!
# Renamed tokens

Renaming changes the operands of tokens and their positions. The reader looks at neither: it takes
the same way over renamed tokens, comes to the renamed formula and stops at the renamed token with
the renamed error.
-/
namespace Sentential

variable {α β : Type}

theorem Formula.map_negate (f : α → β) (n : Nat) (g : Formula α) :
    (g.negate n).map f = (g.map f).negate n := by
  induction n generalizing g with
  | zero => rfl
  | succ n ih => exact ih g.negation

theorem Formula.map_id (g : Formula α) : g.map id = g := by
  induction g with
  | operand value => rfl
  | negation body ih => rw [map, ih]
  | binary op lhs rhs ihl ihr => rw [map, ihl, ihr]

namespace Parser

def Pending.map (f : α → β) : Pending α → Pending β :=
  Option.map fun entry => (entry.1.map f, entry.2)

def Level.map (f : α → β) (level : Level α) : Level β :=
  ⟨Pending.map f level.expression, Pending.map f level.term, level.negations⟩

def Group.map (f : α → β) (move : Nat → Nat) (group : Group α) : Group β :=
  ⟨move group.opening, group.outer.map f⟩

def Expectation.map (f : α → β) : Expectation α → Expectation β
  | .operand => .operand
  | .operator term => .operator (term.map f)

def State.map (f : α → β) (move : Nat → Nat) (s : State α) : State β :=
  ⟨s.groups.map (Group.map f move), s.level.map f, s.expects.map f⟩

end Parser

def GrammarError.map (f : α → β) (move : Nat → Nat) : GrammarError α → GrammarError β
  | .unexpected token => .unexpected (token.map f move)
  | .operandExpected => .operandExpected
  | .unclosed opening => .unclosed (move opening)

namespace Parser

def Failure.map (f : α → β) (move : Nat → Nat) (failure : Failure α) : Failure β :=
  ⟨failure.error.map f move, failure.rest.map (Token.map f move)⟩

variable (f : α → β) (move : Nat → Nat)

theorem Pending.map_join (pending : Pending α) (g : Formula α) :
    (Pending.join pending g).map f = Pending.join (Pending.map f pending) (g.map f) := by
  cases pending <;> rfl

theorem Level.map_addFactor (level : Level α) (g : Formula α) :
    (level.addFactor g).map f = (level.map f).addFactor (g.map f) := by
  simp only [Level.addFactor, Pending.map_join, Formula.map_negate, Level.map]

theorem Level.map_addTerm (level : Level α) (term : Formula α) :
    (level.addTerm term).map f = (level.map f).addTerm (term.map f) :=
  Pending.map_join f level.expression term

theorem Level.map_addOperator (level : Level α) (term : Formula α) (op : BinaryOp) :
    (level.addOperator term op).map f = (level.map f).addOperator (term.map f) op := by
  unfold Level.addOperator
  split
  · rfl
  · rw [← Level.map_addTerm]
    rfl

theorem State.map_complete (groups : List (Group α)) (level : Level α) (g : Formula α) :
    (State.complete groups level g).map f move =
      State.complete (groups.map (Group.map f move)) (level.map f) (g.map f) := by
  simp only [State.complete, State.map, Expectation.map, Level.map_addFactor]
  rfl

theorem State.step_map (s : State α) (token : Token α) :
    (s.map f move).step (token.map f move) =
      ((s.step token).map (State.map f move)).mapError (GrammarError.map f move) := by
  obtain ⟨groups, level, expects⟩ := s
  obtain ⟨lexeme, position⟩ := token
  cases expects with
  | operand =>
    rcases lexeme with value | (_ | op) | (_ | _)
    · exact congrArg Except.ok (State.map_complete f move groups level (.operand value)).symm
    · rfl
    · rfl
    · rfl
    · rfl
  | operator term =>
    rcases lexeme with value | (_ | op) | (_ | _)
    · rfl
    · rfl
    · have h := (Level.map_addOperator f level term op).symm
      exact congrArg (fun level =>
        Except.ok (State.mk (groups.map (Group.map f move)) level .operand)) h
    · rfl
    · cases groups with
      | nil => rfl
      | cons group groups =>
        have h := State.map_complete f move groups group.outer (level.addTerm term)
        rw [Level.map_addTerm] at h
        exact congrArg Except.ok h.symm

theorem State.finish_map (s : State α) :
    (s.map f move).finish = (s.finish.map (Formula.map f)).mapError (GrammarError.map f move) := by
  obtain ⟨groups, level, expects⟩ := s
  cases expects with
  | operand => rfl
  | operator term =>
    cases groups with
    | nil => exact congrArg Except.ok (Level.map_addTerm f level term).symm
    | cons group groups => rfl

theorem run_map (s : State α) (tokens : List (Token α)) :
    run (s.map f move) (tokens.map (Token.map f move)) =
      ((run s tokens).map (Formula.map f)).mapError (Failure.map f move) := by
  induction tokens generalizing s with
  | nil =>
    simp only [List.map_nil, run, State.finish_map]
    cases s.finish <;> rfl
  | cons token tokens ih =>
    simp only [List.map_cons, run, State.step_map]
    cases s.step token with
    | error e => rfl
    | ok t => exact ih t

/-- Renamed tokens read as the renamed formula, or fail with the renamed error. -/
theorem parse_map (tokens : List (Token α)) :
    parse (tokens.map (Token.map f move)) =
      ((parse tokens).map (Formula.map f)).mapError (Failure.map f move) :=
  run_map f move {} tokens

end Parser

end Sentential
