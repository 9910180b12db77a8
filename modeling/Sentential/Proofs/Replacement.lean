import Sentential.Proofs.Outline

/-!
# Phrases in place of operands

A factor may stand wherever an operand may. Putting a factor for every operand of a word keeps the
outline of the word, so that the one is an expression exactly if the other is, and its formula has
the formulas of the factors for its operands. A text with a hole is one such word: whatever factor
the text of the hole spells, the formula around it is the same. So a bracketed expression acts as a
keyword would.
-/
namespace Sentential

variable {α β : Type}

namespace Formula

/-- Every operand replaced by a formula. -/
def bind (f : α → Formula β) : Formula α → Formula β
  | operand value => f value
  | negation body => negation (body.bind f)
  | binary op lhs rhs => binary op (lhs.bind f) (rhs.bind f)

theorem operands_bind (f : α → Formula β) (φ : Formula α) :
    (φ.bind f).operands = φ.operands.flatMap fun a => (f a).operands := by
  induction φ with
  | operand a => simp only [bind, operands, List.flatMap_singleton]
  | negation body ih => exact ih
  | binary op lhs rhs ihl ihr => simp only [bind, operands, List.flatMap_append, ihl, ihr]

theorem bind_congr {f g : α → Formula β} {φ : Formula α} (h : ∀ a ∈ φ.operands, f a = g a) :
    φ.bind f = φ.bind g := by
  induction φ with
  | operand a => exact h a List.mem_cons_self
  | negation body ih => rw [bind, bind, ih h]
  | binary op lhs rhs ihl ihr =>
    simp only [operands, List.forall_mem_append] at h
    rw [bind, bind, ihl h.1, ihr h.2]

theorem eval_bind_congr {f g : α → Formula Bool} (h : ∀ a, (f a).eval = (g a).eval)
    (φ : Formula α) : (φ.bind f).eval = (φ.bind g).eval := by
  induction φ with
  | operand a => exact h a
  | negation body ih => rw [bind, bind, eval, eval, ih]
  | binary op lhs rhs ihl ihr => rw [bind, bind, eval_binary, eval_binary, ihl, ihr]

end Formula

def Lexeme.replace (phrase : α → List (Lexeme β)) : Lexeme α → List (Lexeme β)
  | operand value => phrase value
  | operator op => [operator op]
  | bracket side => [bracket side]

section Factors

variable {phrase : α → List (Lexeme β)} {formula : α → Formula β}

theorem Derives.replace (hp : ∀ a, Derives .factor (phrase a) (formula a)) {c : Category}
    {w : List (Lexeme α)} {φ : Formula α} (h : Derives c w φ) :
    Derives c (w.flatMap (Lexeme.replace phrase)) (φ.bind formula) := by
  induction h using Derives.chainInduction with
  | single _ ih => exact ih.single
  | extend _ _ ihv ihw =>
    rw [List.flatMap_append]
    exact ihv.extend ihw
  | negation _ ih => exact .negation ih
  | operand a =>
    rw [List.flatMap_singleton]
    exact hp a
  | group _ ih =>
    rw [List.flatMap_append]
    exact .group ih

theorem Parser.Outline.run_replace (hp : ∀ a, Derives .factor (phrase a) (formula a))
    (o : Outline) (w : List (Lexeme α)) :
    o.run (w.flatMap (Lexeme.replace phrase)) = o.run w := by
  induction w generalizing o with
  | nil => rfl
  | cons l w ih =>
    obtain ⟨depth, turn⟩ := o
    rw [List.flatMap_cons]
    cases l with
    | operand a =>
      -- A factor in front of an operator's turn fails as the operand does.
      cases turn with
      | operand =>
        rw [run_append, Lexeme.replace, run_of_derives (hp a)]
        exact ih ⟨depth, .operator⟩
      | operator => exact run_operator_of_factor (hp a) depth _
    | operator op =>
      have hs : step (α := β) ⟨depth, turn⟩ (.operator op) =
          step (α := α) ⟨depth, turn⟩ (.operator op) := by
        cases turn <;> cases op <;> rfl
      simp only [Lexeme.replace, List.singleton_append, run, ih, hs]
    | bracket side =>
      have hs : step (α := β) ⟨depth, turn⟩ (.bracket side) =
          step (α := α) ⟨depth, turn⟩ (.bracket side) := by
        cases turn <;> cases side <;> rfl
      simp only [Lexeme.replace, List.singleton_append, run, ih, hs]

/-- With factors for its operands a word is an expression exactly if it is one without them. -/
theorem derives_replace_iff (hp : ∀ a, Derives .factor (phrase a) (formula a))
    {w : List (Lexeme α)} {g : Formula β} :
    Derives .expression (w.flatMap (Lexeme.replace phrase)) g ↔
      ∃ φ, Derives .expression w φ ∧ φ.bind formula = g := by
  constructor
  · intro h
    have hw : ∃ φ, Derives .expression w φ := by
      rw [Parser.exists_derives_iff, ← Parser.Outline.run_replace hp, ← Parser.exists_derives_iff]
      exact ⟨g, h⟩
    obtain ⟨φ, hφ⟩ := hw
    exact ⟨φ, hφ, Parser.derives_unique (hφ.replace hp) h⟩
  · rintro ⟨φ, hφ, rfl⟩
    exact hφ.replace hp

end Factors

/-! ## Words with a hole -/

/-- What stands for an operand that may be a hole. -/
def Lexeme.filling (w : List (Lexeme α)) : Option α → List (Lexeme α)
  | none => w
  | some a => [.operand a]

def Formula.filling (g : Formula α) : Option α → Formula α
  | none => g
  | some a => .operand a

/-- A formula with the holes among its operands filled. -/
def Formula.fill (φ : Formula (Option α)) (g : Formula α) : Formula α := φ.bind (filling g)

def holeBetween (u w : List (Lexeme α)) : List (Lexeme (Option α)) :=
  u.map (Lexeme.map some) ++ .operand none :: w.map (Lexeme.map some)

theorem flatMap_filling_map (v w : List (Lexeme α)) :
    (w.map (Lexeme.map some)).flatMap (Lexeme.replace (Lexeme.filling v)) = w := by
  induction w with
  | nil => rfl
  | cons l w ih =>
    rw [List.map_cons, List.flatMap_cons, ih]
    cases l <;> rfl

theorem filterMap_operand?_map (w : List (Lexeme α)) :
    (w.map (Lexeme.map some)).filterMap Lexeme.operand? =
      (w.filterMap Lexeme.operand?).map some := by
  induction w with
  | nil => rfl
  | cons l w ih =>
    cases l with
    | operand a => exact congrArg (some a :: ·) ih
    | operator op => exact ih
    | bracket side => exact ih

/-- Around a factor the same formulas are found as around a hole. -/
theorem derives_around_iff {u v w : List (Lexeme α)} {f g : Formula α}
    (hv : Derives .factor v g) :
    Derives .expression (u ++ v ++ w) f ↔
      ∃ φ, Derives .expression (holeBetween u w) φ ∧ φ.fill g = f := by
  have hp : ∀ a, Derives .factor (Lexeme.filling v a) (Formula.filling g a) := by
    intro a
    cases a with
    | none => exact hv
    | some a => exact .operand a
  have hw : (holeBetween u w).flatMap (Lexeme.replace (Lexeme.filling v)) = u ++ v ++ w := by
    rw [holeBetween, List.flatMap_append, List.flatMap_cons, flatMap_filling_map,
      flatMap_filling_map, List.append_assoc]
    rfl
  rw [← hw]
  exact derives_replace_iff hp

/-! ## One operand of a formula -/

/-- If just one operand of a row is a hole, it is in the front part or in the back part. -/
theorem hole_cases {u w : List (Option α)} {a b : List α}
    (h : u ++ w = a.map some ++ none :: b.map some) :
    (∃ a₁ a₂, a = a₁ ++ a₂ ∧ u = a₁.map some ∧ w = a₂.map some ++ none :: b.map some) ∨
      ∃ b₁ b₂, b = b₁ ++ b₂ ∧ u = a.map some ++ none :: b₁.map some ∧ w = b₂.map some := by
  rcases List.append_eq_append_iff.mp h with ⟨c, ha, hw⟩ | ⟨c, hu, hb⟩
  · obtain ⟨a₁, a₂, rfl, rfl, rfl⟩ := List.map_eq_append_iff.mp ha
    exact .inl ⟨a₁, a₂, rfl, rfl, hw⟩
  · cases c with
    | nil =>
      rw [List.append_nil] at hu
      exact .inl ⟨a, [], (List.append_nil a).symm, hu, hb.symm⟩
    | cons x c =>
      obtain ⟨rfl, hrest⟩ := List.cons.inj hb
      obtain ⟨b₁, b₂, rfl, rfl, rfl⟩ := List.map_eq_append_iff.mp hrest
      exact .inr ⟨b₁, b₂, rfl, hu, rfl⟩

namespace Formula

/-- The formula with its operand at an index, counted from the left, replaced. -/
def replaceOperand : Formula α → Nat → Formula α → Formula α
  | operand _, 0, g => g
  | operand value, _ + 1, _ => operand value
  | negation body, i, g => negation (body.replaceOperand i g)
  | binary op lhs rhs, i, g =>
    if i < lhs.operands.length then binary op (lhs.replaceOperand i g) rhs
    else binary op lhs (rhs.replaceOperand (i - lhs.operands.length) g)

variable {φ : Formula (Option α)} {a b : List α}

theorem eval_fill_operand (φ : Formula (Option Bool)) (g : Formula Bool) :
    (φ.fill (operand g.eval)).eval = (φ.fill g).eval := by
  refine eval_bind_congr (fun a => ?_) φ
  cases a <;> rfl

theorem fill_eq_fill (h : φ.operands = a.map some) (f g : Formula α) : φ.fill f = φ.fill g := by
  refine bind_congr fun x hx => ?_
  rw [h, List.mem_map] at hx
  obtain ⟨value, -, rfl⟩ := hx
  rfl

theorem flatMap_filling (g : Formula α) (a : List α) :
    (a.map some).flatMap (fun x => (filling g x).operands) = a := by
  induction a with
  | nil => rfl
  | cons x a ih => exact congrArg (x :: ·) ih

theorem operands_fill_of_map (h : φ.operands = a.map some) (g : Formula α) :
    (φ.fill g).operands = a := by
  rw [fill, operands_bind, h, flatMap_filling]

theorem operands_fill (h : φ.operands = a.map some ++ none :: b.map some) (g : Formula α) :
    (φ.fill g).operands = a ++ g.operands ++ b := by
  rw [fill, operands_bind, h, List.flatMap_append, List.flatMap_cons, flatMap_filling,
    flatMap_filling, List.append_assoc]
  rfl

theorem replaceOperand_fill (h : φ.operands = a.map some ++ none :: b.map some) (x : α)
    (g : Formula α) : (φ.fill (operand x)).replaceOperand a.length g = φ.fill g := by
  induction φ generalizing a b with
  | operand v =>
    cases a with
    | nil =>
      obtain ⟨rfl, -⟩ := List.cons.inj h
      rfl
    | cons y a => simp [operands] at h
  | negation body ih => exact congrArg negation (ih h)
  | binary op lhs rhs ihl ihr =>
    have hfill (f : Formula α) : (binary op lhs rhs).fill f = binary op (lhs.fill f) (rhs.fill f) :=
      rfl
    rw [hfill, hfill, replaceOperand]
    rcases hole_cases h with ⟨a₁, a₂, rfl, hl, hr⟩ | ⟨b₁, b₂, rfl, hl, hr⟩
    · rw [operands_fill_of_map hl, if_neg (by simp), List.length_append, Nat.add_sub_cancel_left,
        ihr hr, fill_eq_fill hl (operand x) g]
    · rw [operands_fill hl, if_pos (by simp [operands]), ihl hl, fill_eq_fill hr (operand x) g]

end Formula

/-! ## Texts around a factor -/

def operandCount (tokens : List (Token α)) : Nat :=
  ((tokens.map Token.lexeme).filterMap Lexeme.operand?).length

namespace Expression

/-- Two texts read as the formula, but for a hole between them. -/
def Surrounds (pre post : List Char) (φ : Formula (Option Bool)) : Prop :=
  ∃ u w, Token.Spells .closed pre u ∧ Token.Spells .closed post w ∧
    Derives .expression (holeBetween u w) φ

variable {pre post s : List Char} {f g : Formula Bool}

theorem parse_between_iff {c d : Char} {v : List (Lexeme Bool)} (hc : isLowerLetter c = false)
    (hd : isLowerLetter d = false) (hs : Token.Spells .closed (c :: s ++ [d]) v)
    (hv : Derives .factor v g) :
    parse (pre ++ c :: s ++ d :: post) = .ok f ↔ ∃ φ, Surrounds pre post φ ∧ φ.fill g = f := by
  have hpre : Text.Apart isLowerLetter pre (c :: s ++ [d] ++ post) := .of_head hc
  have hpost : Text.Apart isLowerLetter (c :: s ++ [d]) post := .of_concat hd
  have htext : pre ++ c :: s ++ d :: post = pre ++ (c :: s ++ [d] ++ post) := by
    simp only [List.append_assoc, List.cons_append, List.nil_append]
  rw [htext, parse_eq_ok_iff_spells]
  constructor
  · rintro ⟨w, hw, hd⟩
    obtain ⟨before, rest, hb, hr, rfl⟩ := (Token.Spells.append_iff hpre).mp hw
    obtain ⟨middle, after, hm, ha, rfl⟩ := (Token.Spells.append_iff hpost).mp hr
    obtain rfl := hm.unique hs
    rw [← List.append_assoc] at hd
    obtain ⟨φ, hφ, hf⟩ := (derives_around_iff hv).mp hd
    exact ⟨φ, ⟨before, after, hb, ha, hφ⟩, hf⟩
  · rintro ⟨φ, ⟨before, after, hb, ha, hφ⟩, hf⟩
    refine ⟨before ++ (v ++ after), hb.append (hs.append ha hpost) hpre, ?_⟩
    rw [← List.append_assoc]
    exact (derives_around_iff hv).mpr ⟨φ, hφ, hf⟩

theorem parse_keyword_between_iff {value : Bool} :
    parse (pre ++ ' ' :: keyword value ++ ' ' :: post) = .ok f ↔
      ∃ φ, Surrounds pre post φ ∧ φ.fill (.operand value) = f := by
  have plain := Vocabulary.plain_closed
  have hs : Token.Spells .closed (' ' :: keyword value ++ [' ']) [.operand value] :=
    .space plain ((Token.spells_keyword value).append_cons plain.space (.space plain (.nil _)))
  exact parse_between_iff plain.space plain.space hs (.operand value)

theorem parse_group_between_iff (h : parse s = .ok g) :
    parse (pre ++ '(' :: s ++ ')' :: post) = .ok f ↔
      ∃ φ, Surrounds pre post φ ∧ φ.fill g = f := by
  have plain := Vocabulary.plain_closed
  obtain ⟨w, hw, hd⟩ := parse_eq_ok_iff_spells.mp h
  have hs : Token.Spells .closed ('(' :: s ++ [')']) (.bracket .left :: w ++ [.bracket .right]) :=
    .bracket plain .left
      (hw.append_cons (plain.bracket .right) (.bracket plain .right (.nil _)))
  exact parse_between_iff (plain.bracket .left) (plain.bracket .right) hs (.group hd)

/-- A text in which a keyword is replaced by a bracketed expression reads if it did before, and as
the formula with the expression for that operand. So its value only depends on the value of the
expression. -/
theorem parse_replace_keyword (pre post e : List Char) (g : Formula Bool)
    (he : parse e = .ok g) :
    ((∃ f, parse (pre ++ ' ' :: keyword true ++ ' ' :: post) = .ok f) ↔
      ∃ f, parse (pre ++ '(' :: e ++ ')' :: post) = .ok f) ∧
    (∀ f, parse (pre ++ ' ' :: keyword true ++ ' ' :: post) = .ok f →
      ∃ tokens, Token.lex pre = .ok tokens ∧ f.operands[operandCount tokens]? = some true ∧
        parse (pre ++ '(' :: e ++ ')' :: post) =
          .ok (f.replaceOperand (operandCount tokens) g)) ∧
    ∃ value, evaluate e = .ok value ∧
      ∀ result, evaluate (pre ++ '(' :: e ++ ')' :: post) = .ok result ↔
        evaluate (pre ++ ' ' :: keyword value ++ ' ' :: post) = .ok result := by
  refine ⟨⟨?_, ?_⟩, ?_, g.eval, evaluate_eq_ok_iff.mpr ⟨g, he, rfl⟩, ?_⟩
  · rintro ⟨f, hf⟩
    obtain ⟨φ, hφ, -⟩ := parse_keyword_between_iff.mp hf
    exact ⟨_, (parse_group_between_iff he).mpr ⟨φ, hφ, rfl⟩⟩
  · rintro ⟨f, hf⟩
    obtain ⟨φ, hφ, -⟩ := (parse_group_between_iff he).mp hf
    exact ⟨_, parse_keyword_between_iff.mpr ⟨φ, hφ, rfl⟩⟩
  · intro f hf
    obtain ⟨φ, hφ, rfl⟩ := parse_keyword_between_iff.mp hf
    obtain ⟨u, w, ⟨tokens, hl, rfl⟩, -, hd⟩ := id hφ
    have ho := hd.operands_eq
    rw [holeBetween, List.filterMap_append, List.filterMap_cons, filterMap_operand?_map,
      filterMap_operand?_map] at ho
    refine ⟨tokens, hl, ?_, ?_⟩
    · rw [Formula.operands_fill ho.symm]
      simp [operandCount, Formula.operands]
    · rw [parse_group_between_iff he, operandCount, Formula.replaceOperand_fill ho.symm]
      exact ⟨φ, hφ, rfl⟩
  · intro result
    simp only [evaluate_eq_ok_iff, parse_group_between_iff he, parse_keyword_between_iff]
    constructor
    · rintro ⟨_, ⟨φ, hφ, rfl⟩, hv⟩
      exact ⟨_, ⟨φ, hφ, rfl⟩, (φ.eval_fill_operand g).trans hv⟩
    · rintro ⟨_, ⟨φ, hφ, rfl⟩, hv⟩
      exact ⟨_, ⟨φ, hφ, rfl⟩, (φ.eval_fill_operand g).symm.trans hv⟩

theorem parse_replace_keyword_underNegation :
    parse "true→false".toList = .ok (.binary .conditional (.operand true) (.operand false)) ∧
      parse ("¬(false∨¬".toList ++ '(' :: "true→false".toList ++ ')' :: ")↔true".toList) =
        .ok (.binary .biconditional
          (.negation (.binary .disjunction (.operand false)
            (.negation (.binary .conditional (.operand true) (.operand false)))))
          (.operand true)) := by
  have he : parse "true→false".toList =
      .ok (.binary .conditional (.operand true) (.operand false)) := by rfl
  have hf : parse ("¬(false∨¬".toList ++ ' ' :: keyword true ++ ' ' :: ")↔true".toList) =
      .ok (.binary .biconditional
        (.negation (.binary .disjunction (.operand false) (.negation (.operand true))))
        (.operand true)) := by rfl
  obtain ⟨-, hreplace, -⟩ := parse_replace_keyword _ ")↔true".toList _ _ he
  obtain ⟨tokens, hl, -, hp⟩ := hreplace _ hf
  obtain rfl := Except.ok.inj hl
  exact ⟨he, hp⟩

end Expression

end Sentential
