import Sentential.Proofs.Lexing
import Sentential.Proofs.Parsing

/-!
# Bracketed texts read back

The bracketed text of a formula spells the lexemes of the formula, of which every binary node comes
with a pair of brackets. These lexemes are a factor wherever they stand, so the text reads as the
very formula it was made from.
-/
namespace Sentential

namespace Formula

variable {α : Type}

def lexemes : Formula α → List (Lexeme α)
  | operand value => [.operand value]
  | negation body => .operator .negation :: body.lexemes
  | binary op lhs rhs =>
    .bracket .left :: (lhs.lexemes ++ .operator (.binary op) :: rhs.lexemes) ++ [.bracket .right]

theorem derives_lexemes (f : Formula α) : Derives .factor f.lexemes f := by
  induction f with
  | operand value => exact .operand value
  | negation body ih => exact .negation ih
  | binary op lhs rhs ihl ihr =>
    have left := ihl.chain_of_factor op.tier
    have right := ihr.part_of_factor op.tier
    exact .group (left.extend right).expression_of_chain

theorem spells_render (f : Formula Bool) : Token.Spells .closed f.render f.lexemes := by
  have plain := Vocabulary.plain_closed
  unfold render
  induction f with
  | operand value =>
    rw [renderOnto, List.append_nil]
    exact Token.spells_keyword value
  | negation body ih => exact .operator plain .negation ih
  | binary op lhs rhs ihl ihr =>
    rw [renderOnto, renderOnto_eq, renderOnto_eq _ rhs]
    -- The parts end at a space and at a bracket.
    have right := ihr.append_cons (plain.bracket .right) (.bracket plain .right (.nil _))
    have inner := Token.Spells.operator plain (.binary op) (.space plain right)
    have left := ihl.append_cons plain.space (.space plain inner)
    simpa only [lexemes, Side.symbol, List.append_assoc, List.cons_append] using
      Token.Spells.bracket plain .left left

end Formula

/-- The bracketed text of every formula can be lexed, and it reads as that formula. -/
theorem Expression.parse_render (f : Formula Bool) :
    (∃ tokens, Token.lex f.render = .ok tokens ∧ tokens.map Token.lexeme = f.lexemes) ∧
      parse f.render = .ok f := by
  obtain ⟨tokens, hl, hw⟩ := f.spells_render
  refine ⟨⟨tokens, hl, hw⟩, parse_eq_ok_iff_lex.mpr ⟨tokens, hl, ?_⟩⟩
  rw [Parser.parse_eq_ok_iff, hw]
  exact f.derives_lexemes.expression

end Sentential
