import Mathlib.Data.List.Chain
import Sentential.Proofs.Lexing

/-!
# Layouts of a text

A layout is a row of lexemes with gaps of spaces around them, in which no two keywords touch. Its
text is lexed to these lexemes, each at the offset where it is spelled. Conversely a text that can
be lexed is the text of a layout, and of one only. The induction is on the first run of the text: it
is a space, which makes the gap in front wider, or it spells a lexeme, which takes that gap behind
it.
-/
namespace Sentential

namespace Lexeme

theorem exists_getLast?_spelling (l : Lexeme Bool) :
    ∃ c, (l.spelling keyword).getLast? = some c ∧ isLowerLetter c = l.operand?.isSome := by
  rcases l with (_ | _) | op | side
  · exact ⟨'e', rfl, rfl⟩
  · exact ⟨'e', rfl, rfl⟩
  · exact ⟨op.symbol, rfl, Vocabulary.plain_closed.operator op⟩
  · exact ⟨side.symbol, rfl, Vocabulary.plain_closed.bracket side⟩

theorem exists_spelling_eq_cons (l : Lexeme Bool) :
    ∃ c rest, l.spelling keyword = c :: rest ∧ isLowerLetter c = l.operand?.isSome := by
  rcases l with (_ | _) | op | side
  · exact ⟨'f', _, rfl, rfl⟩
  · exact ⟨'t', _, rfl, rfl⟩
  · exact ⟨op.symbol, [], rfl, Vocabulary.plain_closed.operator op⟩
  · exact ⟨side.symbol, [], rfl, Vocabulary.plain_closed.bracket side⟩

theorem isRun_spelling (l : Lexeme Bool) : Text.IsRun isLowerLetter (l.spelling keyword) := by
  cases l with
  | operand value =>
    exact .letters (keyword_ne_nil value) fun _ => isLowerLetter_of_mem_keyword
  | operator op => exact .single (Vocabulary.plain_closed.operator op)
  | bracket side => exact .single (Vocabulary.plain_closed.bracket side)

theorem readRun_spelling (l : Lexeme Bool) (position : Nat) :
    Token.readRun .closed position (l.spelling keyword) = .ok (some l) := by
  rcases l with (_ | _) | (_ | _ | _ | _ | _) | (_ | _) <;> rfl

end Lexeme

theorem eq_keyword_of_truthValue? {w : List Char} {value : Bool}
    (h : truthValue? w = some value) : w = keyword value := by
  unfold truthValue? at h
  split_ifs at h with ht hf
  · rwa [← Option.some.inj h]
  · rwa [← Option.some.inj h]

theorem Token.readSymbol_cases {c : Char} {position : Nat} {o : Option (Lexeme Bool)}
    (h : readSymbol position c = .ok o) :
    o = none ∧ c = ' ' ∨ ∃ l, o = some l ∧ l.spelling keyword = [c] := by
  unfold readSymbol at h
  split at h
  · next op hop =>
    obtain rfl := Except.ok.inj h
    exact .inr ⟨_, rfl, by rw [← Operator.symbol_of_ofSymbol? hop]; rfl⟩
  · split_ifs at h with hl hr hs
    · obtain rfl := Except.ok.inj h
      exact .inr ⟨_, rfl, by rw [hl]; rfl⟩
    · obtain rfl := Except.ok.inj h
      exact .inr ⟨_, rfl, by rw [hr]; rfl⟩
    · exact .inl ⟨(Except.ok.inj h).symm, hs⟩

theorem Token.readRun_cases {w : List Char} {position : Nat} {o : Option (Lexeme Bool)}
    (hw : Text.IsRun isLowerLetter w) (h : readRun .closed position w = .ok o) :
    o = none ∧ w = [' '] ∨ ∃ l, o = some l ∧ l.spelling keyword = w := by
  cases hw with
  | letters hne hw =>
    rw [readRun_letters hne hw, readWord] at h
    split at h
    · next value hv =>
      obtain rfl := Except.ok.inj h
      exact .inr ⟨_, rfl, (eq_keyword_of_truthValue? hv).symm⟩
    · cases h
  | single hc =>
    rw [readRun_single hc] at h
    simpa only [List.cons.injEq, and_true] using readSymbol_cases h

/-- A lexeme with the number of spaces behind it. -/
@[ext]
structure Slot where
  lexeme : Lexeme Bool
  gap : Nat
  deriving DecidableEq, Repr

namespace Slot

def text (x : Slot) : List Char := x.lexeme.spelling keyword ++ List.replicate x.gap ' '

/-- The tokens of slots whose text begins at an offset. -/
def tokens (offset : Nat) : List Slot → List (Token Bool)
  | [] => []
  | x :: more => ⟨x.lexeme, offset⟩ :: tokens (offset + x.text.length) more

/-- If both are keywords, there is a space between them. -/
def Parted (x y : Slot) : Prop :=
  x.lexeme.operand?.isSome → y.lexeme.operand?.isSome → 0 < x.gap

theorem length_text (x : Slot) : x.text.length = (x.lexeme.spelling keyword).length + x.gap := by
  simp [text]

theorem flatMap_text_cons (x : Slot) (more : List Slot) :
    (x :: more).flatMap text =
      x.lexeme.spelling keyword ++ (List.replicate x.gap ' ' ++ more.flatMap text) := by
  simp [text]

theorem apart_iff {x : Slot} {more : List Slot} :
    Text.Apart isLowerLetter (x.lexeme.spelling keyword)
        (List.replicate x.gap ' ' ++ more.flatMap text) ↔
      ∀ y ∈ more.head?, x.Parted y := by
  obtain ⟨l, gap⟩ := x
  cases gap with
  | succ n =>
    -- A space keeps any two slots apart.
    have hparted : ∀ y, Parted ⟨l, n + 1⟩ y := fun y _ _ => Nat.succ_pos n
    have happart := Text.Apart.of_head (a := l.spelling keyword)
      (b := List.replicate n ' ' ++ more.flatMap text) Vocabulary.plain_closed.space
    exact ⟨fun _ y _ => hparted y, fun _ => happart⟩
  | zero =>
    cases more with
    | nil => simp [Text.Apart]
    | cons y more =>
      -- The last character of the one meets the first of the other: both are letters, or not.
      obtain ⟨c, hlast, hc⟩ := l.exists_getLast?_spelling
      obtain ⟨d, word, hword, hd⟩ := y.lexeme.exists_spelling_eq_cons
      simp [Text.Apart, Parted, text, hlast, hword, hc, hd]

theorem readRuns_spaces (n position : Nat) (s : List Char) :
    Token.readRuns .closed position (Text.runs isLowerLetter (List.replicate n ' ' ++ s)) =
      Token.readRuns .closed (position + n) (Text.runs isLowerLetter s) := by
  induction n generalizing position with
  | zero => rfl
  | succ n ih =>
    have hspace : isLowerLetter ' ' = false := Vocabulary.plain_closed.space
    rw [List.replicate_succ, List.cons_append, ← List.singleton_append,
      (Text.IsRun.single hspace).runs_append (.of_last hspace)]
    have hn : position + 1 + n = position + (n + 1) := by omega
    rw [← hn]
    exact ih (position + 1)

theorem readRuns_slots {slots : List Slot} (h : slots.IsChain Parted) (position : Nat) :
    Token.readRuns .closed position (Text.runs isLowerLetter (slots.flatMap text)) =
      .ok (tokens position slots) := by
  induction slots generalizing position with
  | nil => rfl
  | cons x more ih =>
    rw [List.isChain_cons] at h
    have ha := apart_iff.mpr h.1
    rw [flatMap_text_cons, x.lexeme.isRun_spelling.runs_append ha, Token.readRuns,
      x.lexeme.readRun_spelling, readRuns_spaces, Nat.add_assoc, ← length_text, ih h.2]
    rfl

theorem eq_of_tokens_eq {slots others : List Slot} {offset start : Nat}
    (ht : tokens offset slots = tokens start others)
    (hl : offset + (slots.flatMap text).length = start + (others.flatMap text).length) :
    offset = start ∧ slots = others := by
  induction slots generalizing others offset start with
  | nil =>
    cases others with
    | nil => exact ⟨by simpa using hl, rfl⟩
    | cons y others => simp [tokens] at ht
  | cons x more ih =>
    cases others with
    | nil => simp [tokens] at ht
    | cons y others =>
      simp only [tokens, List.cons.injEq, Token.mk.injEq] at ht
      simp only [List.flatMap_cons, List.length_append, ← Nat.add_assoc] at hl
      obtain ⟨⟨hlexeme, hoffset⟩, hmore⟩ := ht
      -- Where the next slot begins gives the gap.
      obtain ⟨hnext, hslots⟩ := ih hmore hl
      rw [length_text, length_text, hlexeme, hoffset] at hnext
      have hgap : x.gap = y.gap := by omega
      refine ⟨hoffset, ?_⟩
      rw [hslots, Slot.ext hlexeme hgap]

end Slot

/-- Slots with a number of spaces in front, no two keywords among them touching. -/
@[ext]
structure Layout where
  indent : Nat
  slots : List Slot
  parted : slots.IsChain Slot.Parted

namespace Layout

def text (l : Layout) : List Char := List.replicate l.indent ' ' ++ l.slots.flatMap Slot.text

def tokens (l : Layout) : List (Token Bool) := Slot.tokens l.indent l.slots

theorem lex_text (l : Layout) : Token.lex l.text = .ok l.tokens := by
  have hread := Slot.readRuns_slots l.parted (0 + l.indent)
  rwa [← Slot.readRuns_spaces, Nat.zero_add] at hread

theorem text_injective : Function.Injective text := by
  intro l m h
  have ht : l.tokens = m.tokens := by
    have hlex := l.lex_text
    rw [h, m.lex_text] at hlex
    exact (Except.ok.inj hlex).symm
  have hl := congrArg List.length h
  simp only [text, List.length_append, List.length_replicate] at hl
  obtain ⟨hindent, hslots⟩ := Slot.eq_of_tokens_eq ht hl
  exact Layout.ext hindent hslots

def widen (l : Layout) : Layout := { l with indent := l.indent + 1 }

theorem text_widen (l : Layout) : l.widen.text = [' '] ++ l.text := rfl

def cons (lexeme : Lexeme Bool) (l : Layout)
    (h : Text.Apart isLowerLetter (lexeme.spelling keyword) l.text) : Layout :=
  ⟨0, ⟨lexeme, l.indent⟩ :: l.slots, List.isChain_cons.mpr ⟨Slot.apart_iff.mp h, l.parted⟩⟩

theorem text_cons (lexeme : Lexeme Bool) (l : Layout)
    (h : Text.Apart isLowerLetter (lexeme.spelling keyword) l.text) :
    (cons lexeme l h).text = lexeme.spelling keyword ++ l.text := by
  simp [cons, text, Slot.text]

theorem exists_of_readRuns {s : List Char} {position : Nat} {tokens : List (Token Bool)}
    (h : Token.readRuns .closed position (Text.runs isLowerLetter s) = .ok tokens) :
    ∃ l : Layout, l.text = s ∧ Slot.tokens (position + l.indent) l.slots = tokens := by
  induction s using Text.run_induction (p := isLowerLetter) generalizing position tokens with
  | nil => exact ⟨⟨0, [], .nil⟩, rfl, Except.ok.inj h⟩
  | append w s hw ha ih =>
    rw [hw.runs_append ha, Token.readRuns] at h
    cases hr : Token.readRun .closed position w with
    | error e => simp [hr] at h
    | ok o =>
      rcases Token.readRun_cases hw hr with ⟨rfl, rfl⟩ | ⟨lexeme, rfl, rfl⟩
      · rw [hr] at h
        obtain ⟨l, rfl, rfl⟩ := ih h
        refine ⟨l.widen, l.text_widen, ?_⟩
        simp [widen, Nat.add_assoc, Nat.add_comm 1]
      · cases hm : Token.readRuns .closed (position + (lexeme.spelling keyword).length)
            (Text.runs isLowerLetter s) with
        | error e => simp [hr, hm] at h
        | ok more =>
          simp only [hr, hm] at h
          obtain ⟨l, rfl, rfl⟩ := ih hm
          refine ⟨cons lexeme l ha, text_cons lexeme l ha, ?_⟩
          rw [← Except.ok.inj h]
          simp [cons, Slot.tokens, Slot.length_text, Nat.add_assoc]

end Layout

namespace Token

theorem spells_spelling (l : Lexeme Bool) : Spells .closed (l.spelling keyword) [l] := by
  cases l with
  | operand value => exact spells_keyword value
  | operator op => exact .operator Vocabulary.plain_closed op (.nil _)
  | bracket side => exact .bracket Vocabulary.plain_closed side (.nil _)

theorem spells_joined (w : List (Lexeme Bool)) :
    Spells .closed (List.intercalate [' '] (w.map (Lexeme.spelling keyword))) w := by
  have plain := Vocabulary.plain_closed
  induction w with
  | nil => exact .nil _
  | cons l w ih =>
    cases w with
    | nil => simpa [List.intercalate] using spells_spelling l
    | cons m w =>
      have h := (spells_spelling l).append_cons plain.space (.space plain ih)
      simpa [List.intercalate] using h

/-- The lexer accepts the texts of layouts, each of which has one layout, and finds the lexemes of
the layout at their offsets. So lexemes that are spelled with single spaces between them are found
again. -/
theorem lex_eq_ok_iff_layout :
    (∀ s tokens, lex s = .ok tokens ↔ ∃ l : Layout, l.text = s ∧ l.tokens = tokens) ∧
      Function.Injective Layout.text ∧
      ∀ w : List (Lexeme Bool), ∃ tokens,
        lex (List.intercalate [' '] (w.map (Lexeme.spelling keyword))) = .ok tokens ∧
          tokens.map lexeme = w := by
  refine ⟨fun s tokens => ⟨fun h => ?_, ?_⟩, Layout.text_injective, spells_joined⟩
  · obtain ⟨l, hs, ht⟩ := Layout.exists_of_readRuns h
    rw [Nat.zero_add] at ht
    exact ⟨l, hs, ht⟩
  · rintro ⟨l, rfl, rfl⟩
    exact l.lex_text

end Token

end Sentential
