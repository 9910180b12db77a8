import Sentential.Formula

/-!
# The grammar of formulas

    Expression := Term (('→' | '↔') Term)*
    Term       := Factor (('∧' | '∨') Factor)*
    Factor     := '¬' Factor | operand | '(' Expression ')'

A derivation says that a sequence of lexemes is a phrase and which formula the phrase is. The rules
name the operators that they join. A chain grows at its right end, so that it groups to the left,
and brackets leave no node. A formula has the operands of its phrase, in the same order.

What holds of expressions and terms alike is said of the chains of either tier.
-/
namespace Sentential

inductive Category where
  | expression
  | term
  | factor
  deriving DecidableEq, Repr

inductive Derives {α : Type} : Category → List (Lexeme α) → Formula α → Prop where
  | ofTerm {w : List (Lexeme α)} {f : Formula α} :
      Derives .term w f → Derives .expression w f
  | conditional {v w : List (Lexeme α)} {f g : Formula α} :
      Derives .expression v f → Derives .term w g →
      Derives .expression (v ++ .operator (.binary .conditional) :: w) (.binary .conditional f g)
  | biconditional {v w : List (Lexeme α)} {f g : Formula α} :
      Derives .expression v f → Derives .term w g →
      Derives .expression (v ++ .operator (.binary .biconditional) :: w)
        (.binary .biconditional f g)
  | ofFactor {w : List (Lexeme α)} {f : Formula α} :
      Derives .factor w f → Derives .term w f
  | conjunction {v w : List (Lexeme α)} {f g : Formula α} :
      Derives .term v f → Derives .factor w g →
      Derives .term (v ++ .operator (.binary .conjunction) :: w) (.binary .conjunction f g)
  | disjunction {v w : List (Lexeme α)} {f g : Formula α} :
      Derives .term v f → Derives .factor w g →
      Derives .term (v ++ .operator (.binary .disjunction) :: w) (.binary .disjunction f g)
  | negation {w : List (Lexeme α)} {f : Formula α} :
      Derives .factor w f → Derives .factor (.operator .negation :: w) (.negation f)
  | operand (value : α) : Derives .factor [.operand value] (.operand value)
  | group {w : List (Lexeme α)} {f : Formula α} :
      Derives .expression w f → Derives .factor (.bracket .left :: w ++ [.bracket .right]) f

namespace Tier

/-- The chains of the operators of a tier. -/
def chain : Tier → Category
  | implication => .expression
  | junction => .term

/-- What the operators of a tier stand between. -/
def part : Tier → Category
  | implication => .term
  | junction => .factor

end Tier

variable {α β : Type}

namespace Formula

def operands : Formula α → List α
  | operand value => [value]
  | negation body => body.operands
  | binary _ lhs rhs => lhs.operands ++ rhs.operands

end Formula

def Lexeme.operand? : Lexeme α → Option α
  | operand value => some value
  | operator _ => none
  | bracket _ => none

namespace Derives

variable {v w : List (Lexeme α)} {f g : Formula α}

theorem single {tier : Tier} (h : Derives tier.part w f) : Derives tier.chain w f := by
  cases tier with
  | junction => exact .ofFactor h
  | implication => exact .ofTerm h

theorem extend {op : BinaryOp} (hf : Derives op.tier.chain v f) (hg : Derives op.tier.part w g) :
    Derives op.tier.chain (v ++ .operator (.binary op) :: w) (.binary op f g) := by
  cases op with
  | conjunction => exact .conjunction hf hg
  | disjunction => exact .disjunction hf hg
  | conditional => exact .conditional hf hg
  | biconditional => exact .biconditional hf hg

theorem part_of_factor (h : Derives .factor w f) (tier : Tier) : Derives tier.part w f := by
  cases tier with
  | junction => exact h
  | implication => exact .ofFactor h

theorem chain_of_factor (h : Derives .factor w f) (tier : Tier) : Derives tier.chain w f :=
  single (h.part_of_factor tier)

theorem expression_of_chain {tier : Tier} (h : Derives tier.chain w f) :
    Derives .expression w f := by
  cases tier with
  | junction => exact .ofTerm h
  | implication => exact h

theorem expression (h : Derives .factor w f) : Derives .expression w f := .ofTerm (.ofFactor h)

/-- Induction over phrases in which the chains of both tiers are one case. -/
@[elab_as_elim]
theorem chainInduction
    {motive : (c : Category) → (w : List (Lexeme α)) → (f : Formula α) → Derives c w f → Prop}
    (single : ∀ {tier : Tier} {w : List (Lexeme α)} {f : Formula α} (h : Derives tier.part w f),
      motive tier.part w f h → motive tier.chain w f h.single)
    (extend : ∀ {op : BinaryOp} {v w : List (Lexeme α)} {f g : Formula α}
      (hf : Derives op.tier.chain v f) (hg : Derives op.tier.part w g),
      motive op.tier.chain v f hf → motive op.tier.part w g hg →
      motive op.tier.chain (v ++ .operator (.binary op) :: w) (.binary op f g) (hf.extend hg))
    (negation : ∀ {w : List (Lexeme α)} {f : Formula α} (h : Derives .factor w f),
      motive .factor w f h → motive .factor (.operator .negation :: w) (.negation f) h.negation)
    (operand : ∀ value : α,
      motive .factor [.operand value] (.operand value) (.operand value))
    (group : ∀ {w : List (Lexeme α)} {f : Formula α} (h : Derives .expression w f),
      motive .expression w f h →
      motive .factor (.bracket .left :: w ++ [.bracket .right]) f h.group)
    {c : Category} {w : List (Lexeme α)} {f : Formula α} (h : Derives c w f) :
    motive c w f h := by
  induction h with
  | ofTerm h ih => exact @single .implication _ _ h ih
  | conditional hf hg ihf ihg => exact @extend .conditional _ _ _ _ hf hg ihf ihg
  | biconditional hf hg ihf ihg => exact @extend .biconditional _ _ _ _ hf hg ihf ihg
  | ofFactor h ih => exact @single .junction _ _ h ih
  | conjunction hf hg ihf ihg => exact @extend .conjunction _ _ _ _ hf hg ihf ihg
  | disjunction hf hg ihf ihg => exact @extend .disjunction _ _ _ _ hf hg ihf ihg
  | negation h ih => exact negation h ih
  | operand value => exact operand value
  | group h ih => exact group h ih

theorem operands_eq {c : Category} (h : Derives c w f) :
    w.filterMap Lexeme.operand? = f.operands := by
  induction h using chainInduction with
  | single _ ih => exact ih
  | extend _ _ ihv ihw =>
    rw [List.filterMap_append, ihv, List.filterMap_cons]
    simpa only [Lexeme.operand?, Formula.operands] using congrArg _ ihw
  | negation _ ih => simpa only [List.filterMap_cons, Lexeme.operand?, Formula.operands] using ih
  | operand value => rfl
  | group _ ih =>
    simp only [List.cons_append, List.filterMap_cons, List.filterMap_append, Lexeme.operand?, ih,
      List.filterMap_nil, List.append_nil]

end Derives

end Sentential
