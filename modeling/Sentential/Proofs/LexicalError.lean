import Sentential.Proofs.Lexing

/-!
# Where lexing stops

A text that cannot be lexed falls into a beginning that can, the run at fault, and a rest that is
not looked at. So the error is the leftmost one, and it is told from the text alone: behind a
beginning that can be lexed stands a character of no lexeme, or a whole word that is no keyword. The
induction is on the first run of the text, which is at fault or goes to the beginning.
-/
namespace Sentential

namespace Text

variable {p : Char → Bool} {a b c w : List Char}

theorem Apart.of_append (h : Apart p a (b ++ c)) : Apart p a b := by
  intro x hx y hy
  refine h x hx y ?_
  rw [List.head?_append, Option.mem_def.mp hy]
  rfl

theorem Apart.append (hwa : Apart p w (a ++ b)) (hab : Apart p a b) : Apart p (w ++ a) b := by
  cases a with
  | nil => rwa [List.append_nil]
  | cons x a =>
    have hlast : (w ++ x :: a).getLast? = (x :: a).getLast? := by
      rw [List.getLast?_append, List.getLast?_cons, Option.some_or]
    intro y hy
    exact hab y (hlast ▸ hy)

theorem Apart.change (hw : w ≠ []) (h : Apart p a (w ++ b)) : Apart p a (w ++ c) := by
  obtain ⟨x, w, rfl⟩ := List.exists_cons_of_ne_nil hw
  exact h

/-- Letters are apart from what does not begin with a letter. -/
theorem apart_letters_iff (hne : w ≠ []) (hw : ∀ x ∈ w, p x) :
    Apart p w b ↔ ∀ y ∈ b.head?, p y = false := by
  constructor
  · intro h y hy
    have hlast := hw _ (List.getLast_mem hne)
    simpa [hlast] using h _ (List.getLast?_eq_some_getLast hne) y hy
  · intro h x _ y hy hxy
    rw [h y hy] at hxy
    exact absurd hxy.2 (by decide)

theorem IsRun.ne_nil (h : IsRun p w) : w ≠ [] := by
  cases h with
  | letters hne _ => exact hne
  | single _ => exact List.cons_ne_nil _ _

end Text

variable {α : Type} {v : Vocabulary α} {s before run after : List Char} {e : LexicalError}

namespace Token

/-- The beginning can be lexed, and the run behind it is refused. -/
structure Stops (v : Vocabulary α) (before run after : List Char) (e : LexicalError) : Prop where
  lexes : ∃ tokens, lexWith v before = .ok tokens
  isRun : Text.IsRun v.isLetter run
  apart_before : Text.Apart v.isLetter before (run ++ after)
  apart_after : Text.Apart v.isLetter run after
  refused : readRun v before.length run = .error e

theorem Stops.lexWith_eq (h : Stops v before run after e) :
    lexWith v (before ++ (run ++ after)) = .error e := by
  obtain ⟨tokens, ht⟩ := h.lexes
  unfold lexWith at ht
  rw [lexWith, Text.runs_append h.apart_before, h.isRun.runs_append h.apart_after,
    readRuns_append, ht, Text.flatten_runs, Nat.zero_add]
  simp only [Except.bind, readRuns, h.refused]
  rfl

/-- What stands behind the run does not matter, so long as the run ends there. -/
theorem Stops.change (h : Stops v before run after e) {rest : List Char}
    (ha : Text.Apart v.isLetter run rest) : Stops v before run rest e :=
  ⟨h.lexes, h.isRun, h.apart_before.change h.isRun.ne_nil, ha, h.refused⟩

theorem exists_stop_of_readRuns {position : Nat}
    (h : readRuns v position (Text.runs v.isLetter s) = .error e) :
    ∃ before run after, s = before ++ (run ++ after) ∧
      (∃ tokens, readRuns v position (Text.runs v.isLetter before) = .ok tokens) ∧
      Text.IsRun v.isLetter run ∧ Text.Apart v.isLetter before (run ++ after) ∧
      Text.Apart v.isLetter run after ∧
      readRun v (position + before.length) run = .error e := by
  induction s using Text.run_induction (p := v.isLetter) generalizing position with
  | nil => cases h
  | append w s hw ha ih =>
    rw [hw.runs_append ha, readRuns] at h
    cases hr : readRun v position w with
    | error error =>
      rw [hr] at h
      obtain rfl := Except.error.inj h
      exact ⟨[], w, s, rfl, ⟨[], rfl⟩, hw, by simp [Text.Apart], ha, hr⟩
    | ok lexeme =>
      -- The first run is read in either case, so the error is one of the rest.
      have hrest : readRuns v (position + w.length) (Text.runs v.isLetter s) = .error e := by
        rw [hr] at h
        cases lexeme with
        | none => exact h
        | some lexeme =>
          dsimp only at h
          split at h
          · next hm => rw [hm, Except.error.inj h]
          · cases h
      obtain ⟨before, run, after, rfl, ⟨tokens, ht⟩, hrun, hb, hafter, he⟩ := ih hrest
      refine ⟨w ++ before, run, after, by simp, ?_, hrun, ha.append hb, hafter, ?_⟩
      · rw [hw.runs_append ha.of_append, readRuns, hr]
        cases lexeme with
        | none => exact ⟨tokens, ht⟩
        | some lexeme => exact ⟨_, by rw [ht]⟩
      · rwa [List.length_append, ← Nat.add_assoc]

theorem lexWith_eq_error_iff :
    lexWith v s = .error e ↔
      ∃ before run after, s = before ++ (run ++ after) ∧ Stops v before run after e := by
  constructor
  · intro h
    obtain ⟨before, run, after, hs, hl, hrun, hb, ha, he⟩ := exists_stop_of_readRuns h
    rw [Nat.zero_add] at he
    exact ⟨before, run, after, hs, hl, hrun, hb, ha, he⟩
  · rintro ⟨before, run, after, rfl, hstops⟩
    exact hstops.lexWith_eq

end Token

/-! ## Faults of a text -/

/-- A character that no lexeme has and that is no space. -/
def Foreign (c : Char) : Prop :=
  (∀ op : Operator, c ≠ op.symbol) ∧ (∀ side : Side, c ≠ side.symbol) ∧ c ≠ ' ' ∧
    isLowerLetter c = false

theorem Operator.ofSymbol?_eq_none_iff {c : Char} :
    Operator.ofSymbol? c = none ↔ ∀ op : Operator, c ≠ op.symbol := by
  constructor
  · rintro h op rfl
    rw [Operator.ofSymbol?_symbol] at h
    cases h
  · intro h
    cases hc : Operator.ofSymbol? c with
    | none => rfl
    | some op => exact absurd (Operator.symbol_of_ofSymbol? hc).symm (h op)

namespace Token

theorem readSymbol_eq_error_iff {c : Char} {position : Nat} (hc : isLowerLetter c = false) :
    readSymbol (α := α) position c = .error e ↔
      Foreign c ∧ e = .unknownCharacter c position := by
  have hsides : (∀ side : Side, c ≠ side.symbol) ↔ c ≠ Side.left.symbol ∧ c ≠ Side.right.symbol :=
    ⟨fun h => ⟨h .left, h .right⟩, fun h side => by cases side; exacts [h.1, h.2]⟩
  unfold readSymbol Foreign
  rw [← Operator.ofSymbol?_eq_none_iff, hsides]
  cases Operator.ofSymbol? c with
  | some op => simp
  | none =>
    dsimp only
    split_ifs with hl hr hs
    · simp [hl]
    · simp [hr]
    · simp [hs]
    · simp [hl, hr, hs, hc, eq_comm]

theorem readWord_eq_error_iff {w : List Char} {position : Nat} :
    readWord .closed position w = .error e ↔
      (∀ value, w ≠ keyword value) ∧ e = .badOperand w position := by
  rw [readWord, ← truthValue?_eq_none_iff]
  cases hw : truthValue? w with
  | some value => simp [Vocabulary.closed, hw]
  | none => simp [Vocabulary.closed, hw, eq_comm]

/-- A run is refused if it is a foreign character or a word that is no keyword. -/
theorem readRun_eq_error_iff {run : List Char} {position : Nat}
    (hrun : Text.IsRun isLowerLetter run) :
    readRun .closed position run = .error e ↔
      (∃ c, run = [c] ∧ Foreign c ∧ e = .unknownCharacter c position) ∨
        (∀ c ∈ run, isLowerLetter c) ∧ (∀ value, run ≠ keyword value) ∧
          e = .badOperand run position := by
  cases hrun with
  | letters hne hletters =>
    rw [readRun_letters hne hletters, readWord_eq_error_iff]
    refine ⟨fun h => .inr ⟨hletters, h⟩, ?_⟩
    rintro (⟨c, rfl, hforeign, -⟩ | ⟨-, h⟩)
    · have hc := hletters c List.mem_cons_self
      rw [hforeign.2.2.2] at hc
      cases hc
    · exact h
  | @single c hc =>
    rw [readRun_single hc, readSymbol_eq_error_iff hc]
    refine ⟨fun h => .inl ⟨c, rfl, h⟩, ?_⟩
    rintro (⟨d, hd, h⟩ | ⟨hletters, -⟩)
    · obtain rfl := (List.cons.inj hd).1
      exact h
    · have hletter := hletters c List.mem_cons_self
      rw [hc] at hletter
      cases hletter

/-- The longest word that begins at an offset of the text. -/
def wordAt (s : List Char) (p : Nat) : List Char := (s.drop p).takeWhile isLowerLetter

def ForeignAt (s : List Char) (p : Nat) : Prop := ∃ c, s[p]? = some c ∧ Foreign c

/-- The word at the offset is no keyword. -/
def MisspeltAt (s : List Char) (p : Nat) : Prop :=
  wordAt s p ≠ [] ∧ ∀ value, wordAt s p ≠ keyword value

theorem wordAt_append (hletters : ∀ c ∈ run, isLowerLetter c)
    (ha : ∀ d ∈ after.head?, isLowerLetter d = false) :
    wordAt (before ++ (run ++ after)) before.length = run := by
  rw [wordAt, List.drop_left, List.takeWhile_append_of_pos hletters]
  cases after with
  | nil => simp
  | cons d after =>
    have hd := ha d rfl
    simp [hd]

theorem stops_foreign {p : Nat} {c : Char} (hl : ∃ tokens, lex (s.take p) = .ok tokens)
    (hc : s[p]? = some c) (hforeign : Foreign c) :
    s = s.take p ++ ([c] ++ s.drop (p + 1)) ∧
      Stops .closed (s.take p) [c] (s.drop (p + 1)) (.unknownCharacter c p) := by
  obtain ⟨hp, rfl⟩ := List.getElem?_eq_some_iff.mp hc
  have hlength : (s.take p).length = p := List.length_take_of_le (Nat.le_of_lt hp)
  have hletter : Vocabulary.closed.isLetter s[p] = false := hforeign.2.2.2
  have hrun : Text.IsRun isLowerLetter [s[p]] := .single hletter
  refine ⟨?_, hl, hrun, .of_head hletter, .of_last hletter, ?_⟩
  · rw [List.singleton_append, ← List.drop_eq_getElem_cons hp, List.take_append_drop]
  · rw [hlength]
    exact (readRun_eq_error_iff hrun).mpr (.inl ⟨_, rfl, hforeign, rfl⟩)

theorem stops_misspelt {p : Nat} (hl : ∃ tokens, lex (s.take p) = .ok tokens)
    (ha : Text.Apart isLowerLetter (s.take p) (s.drop p)) (hword : MisspeltAt s p) :
    s = s.take p ++ (wordAt s p ++ (s.drop p).dropWhile isLowerLetter) ∧
      Stops .closed (s.take p) (wordAt s p) ((s.drop p).dropWhile isLowerLetter)
        (.badOperand (wordAt s p) p) := by
  have hsplit : wordAt s p ++ (s.drop p).dropWhile isLowerLetter = s.drop p :=
    List.takeWhile_append_dropWhile
  have hlength : (s.take p).length = p := by
    refine List.length_take_of_le (Nat.le_of_lt ?_)
    by_contra hp
    exact hword.1 (by simp [wordAt, List.drop_eq_nil_of_le (Nat.le_of_not_lt hp)])
  have hletters : ∀ c ∈ wordAt s p, isLowerLetter c := fun c hc => List.mem_takeWhile_imp hc
  have hrun : Text.IsRun isLowerLetter (wordAt s p) := .letters hword.1 hletters
  refine ⟨by rw [hsplit, List.take_append_drop], hl, hrun, by rwa [hsplit], ?_, ?_⟩
  · refine (Text.apart_letters_iff hword.1 hletters).mpr fun d hd => ?_
    have hstop := List.head?_dropWhile_not isLowerLetter (s.drop p)
    rwa [Option.mem_def.mp hd] at hstop
  · rw [hlength]
    exact (readRun_eq_error_iff hrun).mpr (.inr ⟨hletters, hword.2, rfl⟩)

/-- What the text holds where it cannot be lexed on, and the error that tells it. -/
inductive FaultAt (s : List Char) (p : Nat) : LexicalError → Prop where
  | foreign {c : Char} : s[p]? = some c → Foreign c → FaultAt s p (.unknownCharacter c p)
  | misspelt : MisspeltAt s p → FaultAt s p (.badOperand (wordAt s p) p)

theorem Stops.fault (h : Stops .closed before run after e) :
    e.position = before.length ∧ FaultAt (before ++ (run ++ after)) before.length e := by
  rcases (readRun_eq_error_iff h.isRun).mp h.refused with
    ⟨c, rfl, hforeign, rfl⟩ | ⟨hletters, hword, rfl⟩
  · exact ⟨rfl, .foreign (by simp) hforeign⟩
  · have hne := h.isRun.ne_nil
    have hrun : wordAt (before ++ (run ++ after)) before.length = run :=
      wordAt_append hletters ((Text.apart_letters_iff hne hletters).mp h.apart_after)
    refine ⟨rfl, ?_⟩
    have hfault : MisspeltAt (before ++ (run ++ after)) before.length := by
      rw [MisspeltAt, hrun]
      exact ⟨hne, hword⟩
    simpa only [hrun] using FaultAt.misspelt hfault

theorem ForeignAt.not_misspeltAt {p : Nat} (h : ForeignAt s p) : ¬MisspeltAt s p := by
  obtain ⟨c, hc, hforeign⟩ := h
  obtain ⟨hp, rfl⟩ := List.getElem?_eq_some_iff.mp hc
  intro hword
  refine hword.1 ?_
  rw [wordAt, List.drop_eq_getElem_cons hp, List.takeWhile_cons_of_neg]
  simp [hforeign.2.2.2]

theorem FaultAt.code_iff {p : Nat} (h : FaultAt s p e) :
    (e.code = "UNKNOWN_CHAR" ↔ ForeignAt s p) ∧ (e.code = "OPERAND_FORMAT" ↔ MisspeltAt s p) := by
  cases h with
  | @foreign c hc hforeign =>
    have hat : ForeignAt s p := ⟨c, hc, hforeign⟩
    simp [LexicalError.code, hat, hat.not_misspeltAt]
  | misspelt hword =>
    have hat : ¬ForeignAt s p := fun h => h.not_misspeltAt hword
    simp [LexicalError.code, hat, hword]

theorem fault_of_lex (h : lex s = .error e) :
    (∃ tokens, lex (s.take e.position) = .ok tokens) ∧
      Text.Apart isLowerLetter (s.take e.position) (s.drop e.position) ∧
        FaultAt s e.position e := by
  obtain ⟨before, run, after, rfl, hstops⟩ := lexWith_eq_error_iff.mp h
  obtain ⟨hposition, hfault⟩ := hstops.fault
  rw [hposition, List.take_left, List.drop_left]
  exact ⟨hstops.lexes, hstops.apart_before, hfault⟩

/-- A change behind the run at fault leaves the error as it is, so long as the run ends there. -/
theorem lex_change_of_stops (h : Stops .closed before run after e) {rest : List Char}
    (ha : Text.Apart isLowerLetter run rest) :
    lex ((before ++ (run ++ after)).take (e.position + run.length) ++ rest) = .error e := by
  rw [h.fault.1, ← List.length_append, ← List.append_assoc, List.take_left, List.append_assoc]
  exact (h.change ha).lexWith_eq

theorem lex_change_of_foreign {c : Char} {p : Nat} (h : lex s = .error (.unknownCharacter c p))
    (rest : List Char) : lex (s.take (p + 1) ++ rest) = .error (.unknownCharacter c p) := by
  obtain ⟨before, run, after, rfl, hstops⟩ := lexWith_eq_error_iff.mp h
  rcases (readRun_eq_error_iff hstops.isRun).mp hstops.refused with
    ⟨d, rfl, hforeign, -⟩ | ⟨-, -, he⟩
  · exact lex_change_of_stops hstops (.of_last hforeign.2.2.2)
  · cases he

theorem lex_change_of_misspelt {w : List Char} {p : Nat} (h : lex s = .error (.badOperand w p))
    {rest : List Char} (hrest : ∀ d ∈ rest.head?, isLowerLetter d = false) :
    lex (s.take (p + w.length) ++ rest) = .error (.badOperand w p) := by
  obtain ⟨before, run, after, rfl, hstops⟩ := lexWith_eq_error_iff.mp h
  rcases (readRun_eq_error_iff hstops.isRun).mp hstops.refused with
    ⟨d, -, -, he⟩ | ⟨hletters, -, he⟩
  · cases he
  · obtain ⟨rfl, -⟩ := LexicalError.badOperand.inj he
    exact lex_change_of_stops hstops
      ((Text.apart_letters_iff hstops.isRun.ne_nil hletters).mpr hrest)

/-- There is an error at an offset exactly if the text can be lexed up to there, the offset does not
part two letters, and a foreign character or a word that is no keyword stands there. The fault gives
the kind of the error and what it tells. The error stays whatever is put in place of the text behind
the character at fault, or behind the word at fault if the word still ends there. -/
theorem lex_error_leftmost (s : List Char) :
    (∀ p, (∃ e, lex s = .error e ∧ e.position = p) ↔
      (∃ tokens, lex (s.take p) = .ok tokens) ∧
        Text.Apart isLowerLetter (s.take p) (s.drop p) ∧ (ForeignAt s p ∨ MisspeltAt s p)) ∧
    (∀ e, lex s = .error e → FaultAt s e.position e ∧
      (e.code = "UNKNOWN_CHAR" ↔ ForeignAt s e.position) ∧
        (e.code = "OPERAND_FORMAT" ↔ MisspeltAt s e.position)) ∧
    (∀ c p, lex s = .error (.unknownCharacter c p) →
      ∀ rest, lex (s.take (p + 1) ++ rest) = .error (.unknownCharacter c p)) ∧
    ∀ w p, lex s = .error (.badOperand w p) →
      ∀ rest, (∀ d ∈ rest.head?, isLowerLetter d = false) →
        lex (s.take (p + w.length) ++ rest) = .error (.badOperand w p) := by
  refine ⟨fun p => ⟨?_, ?_⟩, fun e h => ?_, fun c p h => lex_change_of_foreign h,
    fun w p h rest => lex_change_of_misspelt h⟩
  · rintro ⟨e, h, rfl⟩
    obtain ⟨hl, ha, hfault⟩ := fault_of_lex h
    refine ⟨hl, ha, ?_⟩
    generalize e.position = p at hfault
    cases hfault with
    | @foreign c hc hforeign => exact .inl ⟨c, hc, hforeign⟩
    | misspelt hword => exact .inr hword
  · rintro ⟨hl, ha, ⟨c, hc, hforeign⟩ | hword⟩
    · obtain ⟨hs, hstops⟩ := stops_foreign hl hc hforeign
      exact ⟨_, lexWith_eq_error_iff.mpr ⟨_, _, _, hs, hstops⟩, rfl⟩
    · obtain ⟨hs, hstops⟩ := stops_misspelt hl ha hword
      exact ⟨_, lexWith_eq_error_iff.mpr ⟨_, _, _, hs, hstops⟩, rfl⟩
  · have hfault := (fault_of_lex h).2.2
    exact ⟨hfault, hfault.code_iff⟩

end Token

end Sentential
