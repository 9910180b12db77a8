import Sentential.Proofs.LexicalError
import Sentential.Proofs.Numeral
import Sentential.Proofs.Session
import Sentential.Proofs.Spacing

/-!
# Commands are no expressions

A session compares the words of its commands without regard to case, and the capitals of an
expression are variables and constants. Whatever is put for them, a command word in any spelling is
one run of letters that is no operand, so a line that names a command cannot be read, and is refused
at its first character. Trimming a line that can be read takes off nothing but spaces. So every line
that has a table is answered as an expression.
-/
namespace Sentential

namespace Text

/-! ## Words in lower case -/

theorem isAsciiLetter_of_isLowerLetter_toLower {c : Char} (h : isLowerLetter c.toLower) :
    isAsciiLetter c := by
  by_cases hc : isCapital c
  · simp [isAsciiLetter, hc]
  · have hupper : ¬('A'.val ≤ c.val ∧ c.val ≤ 'Z'.val) := by
      simpa [isCapital, Char.le_def] using hc
    have hsame : c.toLower = c := dif_neg hupper
    rw [hsame] at h
    simp [isAsciiLetter, h]

/-- Apart from the Kelvin sign only ASCII letters have a small letter for their lower-case form. -/
theorem lowerChar_of_isLowerLetter {c : Char} (h : ∀ d ∈ lowerChar c, isLowerLetter d ∧ d ≠ 'k') :
    isAsciiLetter c ∧ (lowerChar c).length = 1 := by
  unfold lowerChar at h ⊢
  split_ifs at h ⊢
  · exact absurd rfl (h 'k' List.mem_cons_self).2
  · exact absurd (h combiningDot (by simp)).1 (by decide)
  · exact ⟨isAsciiLetter_of_isLowerLetter_toLower (h _ List.mem_cons_self).1, rfl⟩

theorem letters_of_lower {s : List Char} (h : ∀ d ∈ lower s, isLowerLetter d ∧ d ≠ 'k') :
    (∀ c ∈ s, isAsciiLetter c) ∧ (lower s).length = s.length := by
  induction s with
  | nil => exact ⟨nofun, rfl⟩
  | cons c s ih =>
    rw [lower, List.flatMap_cons, List.forall_mem_append] at h
    obtain ⟨hc, hlength⟩ := lowerChar_of_isLowerLetter h.1
    obtain ⟨hs, hrest⟩ := ih h.2
    refine ⟨List.forall_mem_cons.mpr ⟨hc, hs⟩, ?_⟩
    rw [lower, List.flatMap_cons, List.length_append, hlength, ← lower, hrest, List.length_cons,
      Nat.add_comm]

theorem lower_keyword (value : Bool) : lower (keyword value) = keyword value := by
  cases value <;> decide

end Text

namespace Session

/-! ## Lines that name a command -/

def commandWords : List (List Char) := ["ast".toList, "table".toList, "forms".toList]

def wholeLineWords : List (List Char) := ["help".toList, "exit".toList, "quit".toList]

/-- The first word of the line is a command, or the whole line asks for help or for the end. -/
def NamesCommand (line : List Char) : Prop :=
  Text.lower (firstWord line) ∈ commandWords ∨ Text.lower line ∈ wholeLineWords

/-- A word that is one of the commands in some mixture of small and capital letters. -/
def CommandWord (word : List Char) : Prop := Text.lower word ∈ commandWords ++ wholeLineWords

namespace CommandWord

variable {word : List Char}

theorem lower_spec (h : CommandWord word) :
    (∀ d ∈ Text.lower word, isLowerLetter d ∧ d ≠ 'k') ∧ 1 < (Text.lower word).length ∧
      ∀ value, Text.lower word ≠ keyword value := by
  have hwords : ∀ w ∈ commandWords ++ wholeLineWords,
      w.all isLowerLetter ∧ 'k' ∉ w ∧ 1 < w.length ∧ ∀ value, w ≠ keyword value := by
    decide
  obtain ⟨hletters, hk, hlength, hkeyword⟩ := hwords _ h
  refine ⟨fun d hd => ⟨List.all_eq_true.mp hletters d hd, ?_⟩, hlength, hkeyword⟩
  rintro rfl
  exact hk hd

theorem letters (h : CommandWord word) : 1 < word.length ∧ ∀ c ∈ word, isAsciiLetter c := by
  obtain ⟨hletters, hlength, -⟩ := h.lower_spec
  obtain ⟨hword, hsame⟩ := Text.letters_of_lower hletters
  exact ⟨hsame ▸ hlength, hword⟩

theorem ne_nil (h : CommandWord word) : word ≠ [] :=
  List.ne_nil_of_length_pos (Nat.zero_lt_of_lt h.letters.1)

theorem ofWord? (h : CommandWord word) : Atom.ofWord? word = none := by
  have hword : truthValue? word = none := by
    refine truthValue?_eq_none_iff.mpr fun value hw => h.lower_spec.2.2 value ?_
    rw [hw, Text.lower_keyword]
  rw [Expression.ofWord?_eq, hword, Option.map_none]
  rintro c rfl
  exact absurd h.letters.1 (Nat.lt_irrefl 1)

end CommandWord

theorem NamesCommand.exists_word {line : List Char} (h : NamesCommand line) :
    ∃ word rest, line = word ++ rest ∧ CommandWord word ∧ ∀ d ∈ rest.head?, d = ' ' := by
  rcases h with h | h
  · refine ⟨firstWord line, line.dropWhile (· ≠ ' '), List.takeWhile_append_dropWhile.symm,
      List.mem_append_left _ h, fun d hd => ?_⟩
    have hstop := List.head?_dropWhile_not (· ≠ ' ') line
    rw [Option.mem_def.mp hd] at hstop
    simpa using hstop
  · exact ⟨line, [], (List.append_nil line).symm, List.mem_append_right _ h, nofun⟩

theorem NamesCommand.lexWith {line : List Char} (h : NamesCommand line) :
    ∃ word, Token.lexWith .atoms line = .error (.badOperand word 0) := by
  obtain ⟨word, rest, rfl, hword, hrest⟩ := h.exists_word
  have hne := hword.ne_nil
  have hletters := hword.letters.2
  have hstops : Token.Stops .atoms [] word rest (.badOperand word 0) := by
    refine ⟨⟨[], rfl⟩, .letters hne hletters, nofun, ?_, ?_⟩
    · refine (Text.apart_letters_iff hne hletters).mpr fun d hd => ?_
      rw [hrest d hd]
      exact Vocabulary.plain_atoms.space
    · rw [Token.readRun_letters hne hletters, Token.readWord]
      simp only [Vocabulary.atoms, hword.ofWord?, List.length_nil]
  exact ⟨word, hstops.lexWith_eq⟩

/-- Where a command stands in front, no row of a table can be read. -/
theorem NamesCommand.build {line : List Char} (h : NamesCommand line) :
    ∃ error : LexicalError,
      TruthTable.build (String.ofList line) none =
          .error (.evaluation (.malformed (.lexical error))) ∧
        error.code = "OPERAND_FORMAT" ∧ error.position = 0 := by
  obtain ⟨word, hlex⟩ := h.lexWith
  have hparse := Expression.parse_expand (fun _ => false) line
  rw [hlex] at hparse
  rw [← String.toList_ofList (l := line)] at hparse
  exact ⟨_, TruthTable.build_eq_error rfl hparse, rfl, rfl⟩

/-- A line that names no command goes past every check for one. -/
theorem branches_of_not_namesCommand {line : List Char} (h : ¬NamesCommand line) :
    isStop line = false ∧ isHelp line = false ∧ reply line = expressionReply line := by
  obtain ⟨hfirst, hwhole⟩ := not_or.mp h
  simp only [wholeLineWords, List.mem_cons, List.not_mem_nil, or_false, not_or] at hwhole
  obtain ⟨hhelp, hexit, hquit⟩ := hwhole
  have hcommand : Command.ofWord? (firstWord line) = none := by
    refine List.find?_eq_none.mpr fun command _ hname => hfirst ?_
    have hword : command.name = Text.lower (firstWord line) := by simpa using hname
    rw [← hword]
    cases command <;> decide
  refine ⟨?_, beq_eq_false_iff_ne.mpr hhelp, by rw [reply, hcommand]⟩
  rw [isStop, Bool.or_eq_false_iff]
  exact ⟨beq_eq_false_iff_ne.mpr hexit, beq_eq_false_iff_ne.mpr hquit⟩

theorem not_namesCommand_of_build {line : List Char} {t : TruthTable}
    (h : TruthTable.build (String.ofList line) none = .ok t) : ¬NamesCommand line := by
  intro hnames
  obtain ⟨error, herror, -⟩ := hnames.build
  rw [h] at herror
  cases herror

end Session

/-! ## Spaces around a text -/

namespace Token.Spells

variable {α : Type} {v : Vocabulary α} {before s after : List Char} {w : List (Lexeme α)}

theorem spaces (hv : v.Plain) (h : ∀ c ∈ s, c = ' ') : Spells v s [] := by
  induction s with
  | nil => exact .nil v
  | cons c s ih =>
    obtain ⟨rfl, hs⟩ := List.forall_mem_cons.mp h
    exact .space hv (ih hs)

theorem of_spaces_around (hv : v.Plain) (hbefore : ∀ c ∈ before, c = ' ')
    (hafter : ∀ c ∈ after, c = ' ') (h : Spells v (before ++ (s ++ after)) w) : Spells v s w := by
  have hfront : Text.Apart v.isLetter before (s ++ after) := by
    intro c hc d _ hcd
    rw [hbefore c (List.mem_of_getLast? hc), hv.space] at hcd
    exact absurd hcd.1 Bool.false_ne_true
  have hback : Text.Apart v.isLetter s after := by
    intro c _ d hd hcd
    rw [hafter d (List.mem_of_head? hd), hv.space] at hcd
    exact absurd hcd.2 Bool.false_ne_true
  obtain ⟨front, rest, hf, hr, rfl⟩ := (append_iff hfront).mp h
  obtain ⟨body, back, hs, hb, rfl⟩ := (append_iff hback).mp hr
  rw [hf.unique (.spaces hv hbefore), hb.unique (.spaces hv hafter), List.nil_append,
    List.append_nil]
  exact hs

end Token.Spells

theorem isAsciiLetter_of_isBlank {c : Char} (h : Text.isBlank c) : isAsciiLetter c = false := by
  have hcode : ∀ n, n ≤ 'z'.toNat → 'A'.toNat ≤ n → Text.isBlank (Char.ofNat n) = false := by
    decide
  rw [← Bool.not_eq_true]
  intro hletter
  simp only [isAsciiLetter, isLowerLetter, isCapital, Bool.or_eq_true, Bool.and_eq_true,
    decide_eq_true_eq] at hletter
  have hrange : 'A'.toNat ≤ c.toNat ∧ c.toNat ≤ 'z'.toNat := by
    rcases hletter with ⟨hlow, hhigh⟩ | ⟨hlow, hhigh⟩
    · exact ⟨Nat.le_trans (by decide) hlow, hhigh⟩
    · exact ⟨hlow, Nat.le_trans hhigh (by decide)⟩
  have hblank := hcode c.toNat hrange.2 hrange.1
  rw [Char.ofNat_toNat, h] at hblank
  cases hblank

/-- The only blank character that can be read is the space. -/
theorem eq_space_of_isBlank {α : Type} {c : Char} {place : Nat} {l : Option (Lexeme α)}
    (h : Token.readSymbol place c = .ok l) (hc : Text.isBlank c) : c = ' ' := by
  have hop : ∀ op : Operator, Text.isBlank op.symbol = false := by
    rintro (_ | _ | _ | _ | _) <;> decide
  have hside : ∀ side : Side, Text.isBlank side.symbol = false := by
    rintro (_ | _) <;> decide
  have hnone : Operator.ofSymbol? c = none := by
    refine Operator.ofSymbol?_eq_none_iff.mpr fun op hsymbol => ?_
    rw [hsymbol, hop] at hc
    cases hc
  have hbracket (side : Side) : c ≠ side.symbol := by
    rintro rfl
    rw [hside] at hc
    cases hc
  by_contra hspace
  simp only [Token.readSymbol, hnone, hbracket, hspace, ↓reduceIte] at h
  cases h

namespace Expression

variable {category : Category} {φ : Formula Atom} {c : Char} {s : List Char}

theorem Phrase.eq_space_of_isBlank (h : Phrase category s φ) (hc : c ∈ s) (hb : Text.isBlank c) :
    c = ' ' := by
  obtain ⟨_, ⟨tokens, hl, -⟩, -⟩ := h
  obtain ⟨place, l, hr⟩ := Token.readSymbol_of_lexWith hl hc (isAsciiLetter_of_isBlank hb)
  exact Sentential.eq_space_of_isBlank hr hb

theorem Phrase.trim (h : Phrase category s φ) : Phrase category (Text.trim s) φ := by
  obtain ⟨before, after, hs, hbefore, hafter⟩ := Text.exists_trimWith Text.isBlank s
  have hfront : ∀ c ∈ before, c = ' ' := fun c hc =>
    h.eq_space_of_isBlank (hs ▸ List.mem_append_left _ hc) (hbefore c hc)
  have hback : ∀ c ∈ after, c = ' ' := fun c hc =>
    h.eq_space_of_isBlank (hs ▸ List.mem_append_right _ (List.mem_append_right _ hc)) (hafter c hc)
  obtain ⟨w, hw, hd⟩ := h
  rw [hs] at hw
  exact ⟨w, .of_spaces_around Vocabulary.plain_atoms hfront hback hw, hd⟩

theorem Phrase.ne_nil (h : Phrase .expression s φ) : s ≠ [] := by
  rintro rfl
  obtain ⟨tokens, hl, hp⟩ := phrase_expression_iff.mp h
  obtain rfl := Except.ok.inj hl
  cases hp

theorem not_isBlank_of_isVariable {v : Char} (h : isVariable v) : ¬Text.isBlank v := by
  intro hb
  have hletter := isAsciiLetter_of_isBlank hb
  rw [isAsciiLetter, (isVariable_iff.mp h).1, Bool.or_true] at hletter
  cases hletter

theorem freeVariables_trim (s : List Char) : freeVariables (Text.trim s) = freeVariables s := by
  obtain ⟨before, after, hs, hbefore, hafter⟩ := Text.exists_trimWith Text.isBlank s
  refine freeVariables_ext fun v => ?_
  rw [mem_freeVariables, mem_freeVariables]
  refine and_congr_left fun hv => ⟨fun hmem => ?_, fun hmem => ?_⟩
  · exact hs ▸ List.mem_append_right _ (List.mem_append_left _ hmem)
  · rw [hs, List.mem_append, List.mem_append] at hmem
    rcases hmem with hmem | hmem | hmem
    · exact absurd (hbefore v hmem) (not_isBlank_of_isVariable hv)
    · exact hmem
    · exact absurd (hafter v hmem) (not_isBlank_of_isVariable hv)

end Expression

namespace TruthTable

/-- A text of the same formula with the same variables has the same answers. -/
theorem exists_sameAnswers {e f : String} {φ : Formula Atom}
    (hf : Expression.Phrase .expression f.toList φ) (hvars : variablesOf f = variablesOf e) :
    ∃ u, build f none = .ok u ∧
      SameAnswers ⟨e, variablesOf e, (assignments (variablesOf e)).map (rowOf φ)⟩ u :=
  ⟨_, build_of_phrase hf, .mk_rows hvars (by rw [hvars])⟩

/-- Trimming a text that has a table changes none of the answers. -/
theorem build_trim {e : String} {t : TruthTable} (h : build e none = .ok t) :
    ∃ u, build (String.ofList (Text.trim e.toList)) none = .ok u ∧ t.SameAnswers u := by
  obtain ⟨φ, hφ, rfl⟩ := exists_phrase_of_build h
  refine exists_sameAnswers ?_ ?_
  · rw [String.toList_ofList]
    exact hφ.trim
  · rw [variablesOf, variablesOf, String.toList_ofList, Expression.freeVariables_trim]

end TruthTable

namespace Session

/-! ## Lines that have a table -/

/-- What a session prints for a reply: all of it, or the error alone. -/
inductive Reply.Prints : Reply → List String → Prop where
  | printed (output : List String) : Prints ⟨output, none⟩ output
  | refused (error : SyntaxError) :
      Prints ⟨[], some (.evaluation (.malformed error))⟩ ["  ⚠ Syntax Error: " ++ error.message]

theorem Reply.Whole.exists_prints {r : Reply} (h : r.Whole) : ∃ output, r.Prints output := by
  cases h with
  | printed output => exact ⟨output, .printed output⟩
  | refused error => exact ⟨_, .refused error⟩

theorem answers_of_prints {line : List Char} {output : List String} (hne : line ≠ [])
    (hhelp : ¬AsksHelp line) (h : (reply line).Prints output) : Answers line output := by
  generalize hr : reply line = r at h
  cases h with
  | printed output => exact .printed hne hhelp hr
  | refused error => exact .refused hne hhelp hr

/-- A line that has a table once it is trimmed is answered as an expression. -/
theorem converse_of_build {raw : String} {t : TruthTable}
    (h : TruthTable.build (String.ofList (Text.trim raw.toList)) none = .ok t) :
    ∃ output, (expressionReply (Text.trim raw.toList)).Prints output ∧
      ∀ more, ∃ later, converse more = .ok later ∧
        converse (some raw :: more) = .ok ⟨later.prompts + 1, output ++ later.output⟩ := by
  obtain ⟨hstop, hhelp, hreply⟩ := branches_of_not_namesCommand (not_namesCommand_of_build h)
  obtain ⟨φ, hφ, -⟩ := TruthTable.exists_phrase_of_build h
  rw [String.toList_ofList] at hφ
  obtain ⟨output, hprints⟩ := (expressionReply_whole (Text.trim raw.toList)).exists_prints
  rw [isStop_eq_false_iff] at hstop
  rw [isHelp_eq_false_iff] at hhelp
  have hanswers := answers_of_prints hφ.ne_nil hhelp (hreply ▸ hprints)
  refine ⟨output, hprints, fun more => ?_⟩
  obtain ⟨lines, blocks, goodbye, hheld⟩ := exists_held more
  have hmore := converse_of_held hheld
  exact ⟨_, hmore, converse_of_answers hstop hanswers hmore⟩

/-- A line that names a command, in any mixture of small and capital letters, is no expression: its
table is refused for the operand at its first character. So a line that has a table names none, and
is answered as an expression. In a session it need only have a table once it is trimmed, which it
has if it has one before. -/
theorem command_shadows_nothing :
    (∀ line, NamesCommand line → ∃ error : LexicalError,
      TruthTable.build (String.ofList line) none =
          .error (.evaluation (.malformed (.lexical error))) ∧
        error.code = "OPERAND_FORMAT" ∧ error.position = 0) ∧
    (∀ line t, TruthTable.build (String.ofList line) none = .ok t →
      isStop line = false ∧ isHelp line = false ∧ reply line = expressionReply line) ∧
    (∀ raw t, TruthTable.build raw none = .ok t → ∃ u,
      TruthTable.build (String.ofList (Text.trim raw.toList)) none = .ok u ∧ t.SameAnswers u) ∧
    ∀ raw t, TruthTable.build (String.ofList (Text.trim raw.toList)) none = .ok t →
      ∃ output, (expressionReply (Text.trim raw.toList)).Prints output ∧
        ∀ more, ∃ later, converse more = .ok later ∧
          converse (some raw :: more) = .ok ⟨later.prompts + 1, output ++ later.output⟩ :=
  ⟨fun _ h => h.build, fun _ _ h => branches_of_not_namesCommand (not_namesCommand_of_build h),
    fun _ _ => TruthTable.build_trim, fun _ _ => converse_of_build⟩

theorem command_shadows_nothing_mixedCase :
    (∃ error : LexicalError, TruthTable.build (String.ofList "TaBlE ∧ A".toList) none =
        .error (.evaluation (.malformed (.lexical error))) ∧
      error.code = "OPERAND_FORMAT" ∧ error.position = 0) ∧
    (∃ error : LexicalError, TruthTable.build (String.ofList "HELP".toList) none =
        .error (.evaluation (.malformed (.lexical error))) ∧
      error.code = "OPERAND_FORMAT" ∧ error.position = 0) ∧
    reply "A ∨ T".toList = expressionReply "A ∨ T".toList := by
  obtain ⟨hrefused, hreply, -⟩ := command_shadows_nothing
  have htable : TruthTable.build (String.ofList "A ∨ T".toList) none =
      .ok ⟨"A ∨ T", ["A"], [⟨[("A", false)], true⟩, ⟨[("A", true)], true⟩]⟩ := by rfl
  refine ⟨hrefused _ (.inl (by decide)), hrefused _ (.inr (by decide)), ?_⟩
  exact (hreply _ _ htable).2.2

end Session

end Sentential
