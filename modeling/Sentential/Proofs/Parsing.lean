import Sentential.Expression
import Sentential.Proofs.Lexing

/-!
# Reading follows the grammar

A move takes the reader over one token, a passage over several. In every state the tokens read so
far fall apart into what the open groups, the chains in progress and the pending negations have
read, and moves keep this. Conversely the reader passes over a phrase of any category, in any state
that expects an operand, and then holds the formula of the phrase. So it accepts exactly the
expressions.
-/
namespace Sentential.Parser

variable {α : Type}

inductive Moves : State α → Token α → State α → Prop where
  | operand {groups : List (Group α)} {level : Level α} {value : α} {position : Nat} :
      Moves ⟨groups, level, .operand⟩ ⟨.operand value, position⟩
        (State.complete groups level (.operand value))
  | negation {groups : List (Group α)} {level : Level α} {position : Nat} :
      Moves ⟨groups, level, .operand⟩ ⟨.operator .negation, position⟩
        ⟨groups, level.negate, .operand⟩
  | opening {groups : List (Group α)} {level : Level α} {position : Nat} :
      Moves ⟨groups, level, .operand⟩ ⟨.bracket .left, position⟩
        ⟨⟨position, level⟩ :: groups, {}, .operand⟩
  | operator {groups : List (Group α)} {level : Level α} {term : Formula α} {op : BinaryOp}
      {position : Nat} :
      Moves ⟨groups, level, .operator term⟩ ⟨.operator (.binary op), position⟩
        ⟨groups, level.addOperator term op, .operand⟩
  | closing {group : Group α} {groups : List (Group α)} {level : Level α} {term : Formula α}
      {position : Nat} :
      Moves ⟨group :: groups, level, .operator term⟩ ⟨.bracket .right, position⟩
        (State.complete groups group.outer (level.addTerm term))

theorem step_eq_ok_iff {s t : State α} {token : Token α} :
    s.step token = .ok t ↔ Moves s token t := by
  constructor
  · intro h
    obtain ⟨groups, level, expects⟩ := s
    obtain ⟨lexeme, position⟩ := token
    cases expects with
    | operand =>
      rcases lexeme with value | (_ | op) | (_ | _) <;>
        simp only [State.step, Except.ok.injEq, reduceCtorEq] at h <;> subst h
      · exact .operand
      · exact .negation
      · exact .opening
    | operator term =>
      rcases lexeme with value | (_ | op) | (_ | _) <;> cases groups <;>
        simp only [State.step, Except.ok.injEq, reduceCtorEq] at h <;> subst h
      · exact .operator
      · exact .operator
      · exact .closing
  · intro h
    cases h <;> rfl

inductive Passes : State α → List (Token α) → State α → Prop where
  | refl {s : State α} : Passes s [] s
  | move {s t u : State α} {token : Token α} {tokens : List (Token α)} :
      Moves s token t → Passes t tokens u → Passes s (token :: tokens) u

namespace Passes

theorem single {s t : State α} {token : Token α} (h : Moves s token t) : Passes s [token] t :=
  .move h .refl

theorem trans {s t u : State α} {before after : List (Token α)} (h₁ : Passes s before t)
    (h₂ : Passes t after u) : Passes s (before ++ after) u := by
  induction h₁ with
  | refl => exact h₂
  | move hm _ ih => exact .move hm (ih h₂)

end Passes

theorem run_eq_ok_iff {s : State α} {tokens : List (Token α)} {f : Formula α} :
    run s tokens = .ok f ↔ ∃ t, Passes s tokens t ∧ t.finish = .ok f := by
  constructor
  · intro h
    induction tokens generalizing s with
    | nil =>
      refine ⟨s, .refl, ?_⟩
      rw [run] at h
      split at h
      · next g hg => rw [hg, Except.ok.inj h]
      · cases h
    | cons token tokens ih =>
      rw [run] at h
      split at h
      · next t ht =>
        obtain ⟨u, hu, hf⟩ := ih h
        exact ⟨u, .move (step_eq_ok_iff.mp ht) hu, hf⟩
      · cases h
  · rintro ⟨t, ht, hf⟩
    induction ht with
    | refl => simp only [run, hf]
    | move hm _ ih => simpa only [run, step_eq_ok_iff.mpr hm] using ih hf

/-! ## What a state has read -/

/-- What a pending operand has read: nothing, or a chain and the operator behind it. -/
inductive Pending.Reads (tier : Tier) : Pending α → List (Lexeme α) → Prop where
  | none : Reads tier none []
  | some {op : BinaryOp} {w : List (Lexeme α)} {f : Formula α} : op.tier = tier →
      Derives tier.chain w f → Reads tier (some (f, op)) (w ++ [.operator (.binary op)])

theorem Pending.Reads.join {tier : Tier} {pending : Pending α} {v w : List (Lexeme α)}
    {f : Formula α} (hv : Reads tier pending v) (hw : Derives tier.part w f) :
    Derives tier.chain (v ++ w) (pending.join f) := by
  cases hv with
  | none => exact hw.single
  | some ho hf =>
    subst ho
    rw [List.append_assoc]
    exact hf.extend hw

inductive Level.Reads : Level α → List (Lexeme α) → Prop where
  | mk {expression term : Pending α} {u v : List (Lexeme α)} (negations : Nat) :
      Pending.Reads .implication expression u → Pending.Reads .junction term v →
      Level.Reads ⟨expression, term, negations⟩
        (u ++ v ++ List.replicate negations (.operator .negation))

/-- What stands in front of the innermost level: each enclosing level and its opening bracket. -/
inductive GroupsRead : List (Group α) → List (Lexeme α) → Prop where
  | nil : GroupsRead [] []
  | cons {group : Group α} {groups : List (Group α)} {v w : List (Lexeme α)} :
      GroupsRead groups v → group.outer.Reads w →
      GroupsRead (group :: groups) (v ++ w ++ [.bracket .left])

inductive State.Reads : State α → List (Lexeme α) → Prop where
  | operand {groups : List (Group α)} {level : Level α} {v w : List (Lexeme α)} :
      GroupsRead groups v → level.Reads w → State.Reads ⟨groups, level, .operand⟩ (v ++ w)
  | operator {groups : List (Group α)} {expression : Pending α} {term : Formula α}
      {u v w : List (Lexeme α)} : GroupsRead groups v →
      Pending.Reads .implication expression u → Derives .term w term →
      State.Reads ⟨groups, { expression }, .operator term⟩ (v ++ (u ++ w))

theorem Level.reads_empty : Level.Reads (α := α) {} [] := .mk 0 .none .none

theorem derives_negate {w : List (Lexeme α)} {f : Formula α} (h : Derives .factor w f) (n : Nat) :
    Derives .factor (List.replicate n (.operator .negation) ++ w) (f.negate n) := by
  induction n generalizing w f with
  | zero => exact h
  | succ n ih =>
    have hn := ih (Derives.negation h)
    rwa [List.append_cons, ← List.replicate_succ'] at hn

theorem State.reads_complete {groups : List (Group α)} {level : Level α} {u v w : List (Lexeme α)}
    {f : Formula α} (hu : GroupsRead groups u) (hv : level.Reads v) (hw : Derives .factor w f) :
    (State.complete groups level f).Reads (u ++ v ++ w) := by
  obtain ⟨n, he, ht⟩ := hv
  have h := State.Reads.operator hu he (ht.join (derives_negate hw n))
  simp only [List.append_assoc] at h ⊢
  exact h

theorem Level.reads_addOperator {expression : Pending α} {term : Formula α} {u w : List (Lexeme α)}
    (hu : Pending.Reads .implication expression u) (hw : Derives .term w term) (op : BinaryOp) :
    (Level.addOperator { expression } term op).Reads (u ++ w ++ [.operator (.binary op)]) := by
  cases ho : op.tier with
  | junction =>
    have h := Level.Reads.mk 0 hu (Pending.Reads.some ho hw)
    simpa only [Level.addOperator, ho, List.append_assoc, List.replicate_zero, List.append_nil]
      using h
  | implication =>
    have h := Level.Reads.mk 0 (Pending.Reads.some ho (hu.join hw)) .none
    simpa only [Level.addOperator, ho, Level.addTerm, List.replicate_zero, List.append_nil] using h

theorem Moves.reads {s t : State α} {token : Token α} {w : List (Lexeme α)}
    (h : Moves s token t) (hs : s.Reads w) : t.Reads (w ++ [token.lexeme]) := by
  cases h with
  | operand =>
    obtain ⟨hg, hl⟩ := hs
    exact State.reads_complete hg hl (.operand _)
  | negation =>
    obtain ⟨hg, n, he, ht⟩ := hs
    have h := State.Reads.operand hg (Level.Reads.mk (n + 1) he ht)
    simp only [List.replicate_succ', List.append_assoc] at h ⊢
    exact h
  | opening =>
    obtain ⟨hg, hl⟩ := hs
    simpa only [List.append_nil] using State.Reads.operand (.cons hg hl) Level.reads_empty
  | operator =>
    obtain _ | ⟨hg, he, ht⟩ := hs
    simpa only [List.append_assoc] using State.Reads.operand hg (Level.reads_addOperator he ht _)
  | closing =>
    obtain _ | ⟨hg, he, ht⟩ := hs
    obtain _ | ⟨hg, hl⟩ := hg
    have h := State.reads_complete hg hl (.group (he.join ht))
    simp only [List.append_assoc, List.cons_append, List.nil_append] at h ⊢
    exact h

theorem Passes.reads {s t : State α} {tokens : List (Token α)} {w : List (Lexeme α)}
    (h : Passes s tokens t) (hs : s.Reads w) : t.Reads (w ++ tokens.map Token.lexeme) := by
  induction h generalizing w with
  | refl => simpa only [List.map_nil, List.append_nil] using hs
  | move hm _ ih =>
    rw [List.map_cons, List.append_cons]
    exact ih (hm.reads hs)

theorem State.reads_start : State.Reads (α := α) {} [] := .operand .nil Level.reads_empty

theorem State.Reads.finish {s : State α} {w : List (Lexeme α)} {f : Formula α} (h : s.Reads w)
    (hf : s.finish = .ok f) : Derives .expression w f := by
  cases h with
  | operand hg hl => cases hf
  | operator hg he ht =>
    cases hg with
    | nil =>
      rw [← Except.ok.inj hf]
      exact he.join ht
    | cons hg hl => cases hf

/-! ## What a phrase does to the reader -/

/-- The reader passes over the tokens as over a phrase of a category, wherever such a phrase may
stand, and comes to hold its formula. -/
def Crosses (tokens : List (Token α)) (f : Formula α) : Category → Prop
  | .factor => ∀ groups level,
      Passes ⟨groups, level, .operand⟩ tokens (State.complete groups level f)
  | .term => ∀ groups expression,
      Passes ⟨groups, { expression }, .operand⟩ tokens ⟨groups, { expression }, .operator f⟩
  | .expression => ∀ groups, ∃ expression term, Pending.join expression term = f ∧
      Passes ⟨groups, {}, .operand⟩ tokens ⟨groups, { expression }, .operator term⟩

namespace Crosses

variable {before after : List (Token α)} {f g : Formula α}

theorem single {tier : Tier} (h : Crosses before f tier.part) :
    Crosses before f tier.chain := by
  cases tier with
  | junction =>
    intro groups expression
    exact h groups { expression }
  | implication =>
    intro groups
    exact ⟨none, f, rfl, h groups none⟩

theorem extend {op : BinaryOp} {position : Nat} (hf : Crosses before f op.tier.chain)
    (hg : Crosses after g op.tier.part) :
    Crosses (before ++ ⟨.operator (.binary op), position⟩ :: after) (.binary op f g)
      op.tier.chain := by
  cases ho : op.tier with
  | junction =>
    rw [ho] at hf hg
    intro groups expression
    refine (hf groups expression).trans (.move .operator ?_)
    simp only [Level.addOperator, ho]
    exact hg groups { expression, term := some (f, op) }
  | implication =>
    rw [ho] at hf hg
    intro groups
    obtain ⟨expression, term, hj, hp⟩ := hf groups
    refine ⟨some (f, op), g, rfl, hp.trans (.move .operator ?_)⟩
    simp only [Level.addOperator, ho, Level.addTerm, hj]
    exact hg groups (some (f, op))

theorem negation {position : Nat} (h : Crosses before f .factor) :
    Crosses (⟨.operator .negation, position⟩ :: before) (.negation f) .factor :=
  fun groups level => .move .negation (h groups level.negate)

theorem operand {value : α} {position : Nat} :
    Crosses [⟨.operand value, position⟩] (.operand value) .factor :=
  fun _ _ => .single .operand

theorem group {opening closing : Nat} (h : Crosses before f .expression) :
    Crosses (⟨.bracket .left, opening⟩ :: before ++ [⟨.bracket .right, closing⟩]) f .factor := by
  intro groups level
  obtain ⟨expression, term, hj, hp⟩ := h (⟨opening, level⟩ :: groups)
  subst hj
  exact .move .opening (hp.trans (.single .closing))

end Crosses

theorem crosses_of_derives {c : Category} {w : List (Lexeme α)} {f : Formula α}
    (h : Derives c w f) {tokens : List (Token α)} (hw : tokens.map Token.lexeme = w) :
    Crosses tokens f c := by
  induction h using Derives.chainInduction generalizing tokens with
  | single _ ih => exact (ih hw).single
  | extend _ _ ihv ihw =>
    obtain ⟨before, rest, rfl, hb, hr⟩ := List.map_eq_append_iff.mp hw
    obtain ⟨⟨_, position⟩, after, rfl, rfl, ha⟩ := List.map_eq_cons_iff.mp hr
    exact (ihv hb).extend (ihw ha)
  | negation _ ih =>
    obtain ⟨⟨_, position⟩, body, rfl, rfl, hb⟩ := List.map_eq_cons_iff.mp hw
    exact (ih hb).negation
  | operand value =>
    obtain ⟨⟨_, position⟩, rfl, rfl⟩ := List.map_eq_singleton_iff.mp hw
    exact .operand
  | group _ ih =>
    obtain ⟨⟨_, opening⟩, rest, rfl, rfl, hr⟩ := List.map_eq_cons_iff.mp hw
    obtain ⟨body, last, rfl, hb, hl⟩ := List.map_eq_append_iff.mp hr
    obtain ⟨⟨_, closing⟩, rfl, rfl⟩ := List.map_eq_singleton_iff.mp hl
    exact (ih hb).group

theorem parse_eq_ok_iff {tokens : List (Token α)} {f : Formula α} :
    parse tokens = .ok f ↔ Derives .expression (tokens.map Token.lexeme) f := by
  constructor
  · intro h
    obtain ⟨s, hp, hf⟩ := run_eq_ok_iff.mp h
    exact (hp.reads State.reads_start).finish hf
  · intro h
    obtain ⟨expression, term, rfl, hp⟩ := crosses_of_derives h rfl []
    exact run_eq_ok_iff.mpr ⟨_, hp, rfl⟩

theorem exists_tokens (w : List (Lexeme α)) :
    ∃ tokens : List (Token α), tokens.map Token.lexeme = w := by
  refine ⟨w.map fun l => ⟨l, 0⟩, ?_⟩
  rw [List.map_map]
  exact List.map_id w

/-- A sequence of lexemes is the phrase of at most one formula. -/
theorem derives_unique {w : List (Lexeme α)} {f g : Formula α} (hf : Derives .expression w f)
    (hg : Derives .expression w g) : f = g := by
  obtain ⟨tokens, rfl⟩ := exists_tokens w
  exact Except.ok.inj ((parse_eq_ok_iff.mpr hf).symm.trans (parse_eq_ok_iff.mpr hg))

end Sentential.Parser

namespace Sentential.Expression

theorem parse_eq_ok_iff_lex {s : List Char} {f : Formula Bool} :
    parse s = .ok f ↔ ∃ tokens, Token.lex s = .ok tokens ∧ Parser.parse tokens = .ok f := by
  rw [parse]
  split
  · next h => simp [h]
  · next tokens h =>
    split
    · next h' => simp [h, h']
    · next h' => simp [h, h']

theorem exists_spells_derives_iff {α : Type} {v : Vocabulary α} {s : List Char} {f : Formula α} :
    (∃ w, Token.Spells v s w ∧ Derives .expression w f) ↔
      ∃ tokens, Token.lexWith v s = .ok tokens ∧ Parser.parse tokens = .ok f := by
  constructor
  · rintro ⟨w, ⟨tokens, hl, rfl⟩, hd⟩
    exact ⟨tokens, hl, Parser.parse_eq_ok_iff.mpr hd⟩
  · rintro ⟨tokens, hl, hp⟩
    exact ⟨_, ⟨tokens, hl, rfl⟩, Parser.parse_eq_ok_iff.mp hp⟩

theorem parse_eq_ok_iff_spells {s : List Char} {f : Formula Bool} :
    parse s = .ok f ↔ ∃ w, Token.Spells .closed s w ∧ Derives .expression w f :=
  parse_eq_ok_iff_lex.trans exists_spells_derives_iff.symm

theorem evaluate_eq_ok_iff {s : List Char} {value : Bool} :
    evaluate s = .ok value ↔ ∃ f, parse s = .ok f ∧ f.eval = value := by
  rw [evaluate]
  cases parse s with
  | error e => simp [Except.map]
  | ok f => simp [Except.map, Formula.value_eq_eval]

/-- A text reads as a formula exactly if its tokens are an expression of the grammar with that
formula, and no sequence of lexemes is an expression with two. -/
theorem parse_eq_ok_iff_derives (s : List Char) :
    (∀ f, parse s = .ok f ↔
      ∃ tokens, Token.lex s = .ok tokens ∧
        Derives .expression (tokens.map Token.lexeme) f) ∧
    ∀ (w : List (Lexeme Bool)) (f g : Formula Bool),
      Derives .expression w f → Derives .expression w g → f = g := by
  constructor
  · intro f
    simp only [parse_eq_ok_iff_lex, Parser.parse_eq_ok_iff]
  · intro w f g hf hg
    exact Parser.derives_unique hf hg

end Sentential.Expression
