import Mathlib.Data.List.DropRight
import Sentential.Proofs.LexicalError
import Sentential.Proofs.OpenExpression

/-!
# Lexing a concatenation

Two texts are put together. If no word goes over the seam, the whole is lexed as the parts are, one
after the other, and the first part that is refused gives the error. A word that goes over the seam
is read otherwise than its two parts: no keyword begins with another one, so of the word and its
beginning at most one is a keyword, and if neither is, the error tells the longer word. Then the
whole is lexed like its parts only if the first is refused before that word.
-/
namespace Sentential

namespace Text

variable {p : Char → Bool} {a b before left right after : List Char}

/-- A word goes over the seam between its two parts and ends on both sides of it. -/
structure Crossing (p : Char → Bool) (before left right after : List Char) : Prop where
  left_ne : left ≠ []
  right_ne : right ≠ []
  letters : ∀ c ∈ left ++ right, p c
  begins : ∀ c ∈ before.getLast?, p c = false
  ends : ∀ d ∈ after.head?, p d = false

theorem exists_crossing (h : ¬Apart p a b) : ∃ before left right after,
    a = before ++ left ∧ b = right ++ after ∧ Crossing p before left right after := by
  have hseam : ∃ c ∈ a.getLast?, ∃ d ∈ b.head?, p c ∧ p d := by simpa [Apart] using h
  obtain ⟨c, hc, d, hd, hpc, hpd⟩ := hseam
  have hleft : a.rtakeWhile p ≠ [] := by
    obtain ⟨s, rfl⟩ := List.getLast?_eq_some_iff.mp hc
    simp [hpc]
  have hright : b.takeWhile p ≠ [] := by
    obtain ⟨s, rfl⟩ := List.head?_eq_some_iff.mp hd
    simp [hpd]
  have hletters : ∀ x ∈ a.rtakeWhile p ++ b.takeWhile p, p x := by
    simp only [List.mem_append]
    rintro x (hx | hx)
    · exact List.mem_rtakeWhile_imp hx
    · exact List.mem_takeWhile_imp hx
  have hbegins : ∀ x ∈ (a.rdropWhile p).getLast?, p x = false := by
    intro x hx
    obtain ⟨hne, rfl⟩ := List.mem_getLast?_eq_getLast hx
    simpa using List.rdropWhile_last_not p a hne
  have hends : ∀ x ∈ (b.dropWhile p).head?, p x = false := by
    intro x hx
    have hstop := List.head?_dropWhile_not p b
    rwa [Option.mem_def.mp hx] at hstop
  exact ⟨_, _, _, _, List.rdropWhile_append_rtakeWhile.symm,
    List.takeWhile_append_dropWhile.symm, hleft, hright, hletters, hbegins, hends⟩

namespace Crossing

theorem apart_before (h : Crossing p before left right after) (rest : List Char) :
    Apart p before rest := by
  intro c hc d _ hcd
  rw [h.begins c hc] at hcd
  exact absurd hcd.1 (by decide)

theorem letters_left (h : Crossing p before left right after) : ∀ c ∈ left, p c :=
  fun c hc => h.letters c (List.mem_append_left right hc)

end Crossing

end Text

theorem LexicalError.code_shift (k : Nat) (e : LexicalError) : (e.shift k).code = e.code := by
  cases e <;> rfl

theorem LexicalError.cause_shift (k : Nat) (e : LexicalError) : (e.shift k).cause = e.cause := by
  cases e <;> rfl

theorem LexicalError.position_shift (k : Nat) (e : LexicalError) :
    (e.shift k).position = e.position + k := by
  cases e <;> rfl

namespace Token

variable {a b before left right after : List Char} {first second : List (Token Bool)}
  {e : LexicalError}

/-! ## No word over the seam -/

theorem lex_append_of_error (h : Text.Apart isLowerLetter a b) (ha : lex a = .error e) :
    lex (a ++ b) = .error e := by
  unfold lex at ha ⊢
  rw [lexWith_append h, ha]
  rfl

theorem lex_append_of_ok (h : Text.Apart isLowerLetter a b) (ha : lex a = .ok first)
    (hb : lex b = .ok second) : lex (a ++ b) = .ok (first ++ second.map (shift a.length)) := by
  unfold lex at ha hb ⊢
  rw [lexWith_append h, ha, hb]
  rfl

theorem lex_append_of_ok_error (h : Text.Apart isLowerLetter a b) (ha : lex a = .ok first)
    (hb : lex b = .error e) : lex (a ++ b) = .error (e.shift a.length) := by
  unfold lex at ha hb ⊢
  rw [lexWith_append h, ha, hb]
  rfl

/-- The whole is lexed as its two parts are. Their tokens stand one after the other, those of the
second moved by the length of the first. The error is that of the first part, as it is, or else that
of the second, moved likewise. -/
structure LexedInTurn (a b : List Char) : Prop where
  lexes_iff : (∃ tokens, lex (a ++ b) = .ok tokens) ↔
    (∃ first, lex a = .ok first) ∧ ∃ second, lex b = .ok second
  tokens : ∀ first second, lex a = .ok first → lex b = .ok second →
    lex (a ++ b) = .ok (first ++ second.map (shift a.length))
  first_error : ∀ e, lex a = .error e → lex (a ++ b) = .error e
  second_error : ∀ first e, lex a = .ok first → lex b = .error e →
    ∃ e', lex (a ++ b) = .error e' ∧ e'.code = e.code ∧ e'.cause = e.cause ∧
      e'.position = e.position + a.length

theorem lexedInTurn_of_apart (h : Text.Apart isLowerLetter a b) : LexedInTurn a b where
  lexes_iff := by
    constructor
    · rintro ⟨tokens, ht⟩
      cases ha : lex a with
      | error e => cases ht.symm.trans (lex_append_of_error h ha)
      | ok first =>
        cases hb : lex b with
        | error e => cases ht.symm.trans (lex_append_of_ok_error h ha hb)
        | ok second => exact ⟨⟨first, rfl⟩, second, rfl⟩
    · rintro ⟨⟨first, ha⟩, second, hb⟩
      exact ⟨_, lex_append_of_ok h ha hb⟩
  tokens _ _ := lex_append_of_ok h
  first_error _ := lex_append_of_error h
  second_error _ e ha hb := ⟨e.shift a.length, lex_append_of_ok_error h ha hb,
    e.code_shift a.length, e.cause_shift a.length, e.position_shift a.length⟩

theorem lexedInTurn_of_forall_error (h : ∀ rest, lex (a ++ rest) = .error e) :
    LexedInTurn a b := by
  have ha : lex a = .error e := by simpa using h []
  refine ⟨?_, ?_, ?_, ?_⟩ <;> simp [ha, h b]

/-! ## A word over the seam -/

theorem lex_of_misspelt {word : List Char} (hb : lex before = .ok first)
    (hbefore : Text.Apart isLowerLetter before (word ++ after)) (hne : word ≠ [])
    (hletters : ∀ c ∈ word, isLowerLetter c) (hafter : ∀ d ∈ after.head?, isLowerLetter d = false)
    (hword : ∀ value, word ≠ keyword value) :
    lex (before ++ (word ++ after)) = .error (.badOperand word before.length) := by
  have hrun : Text.IsRun isLowerLetter word := .letters hne hletters
  have hstops : Stops .closed before word after (.badOperand word before.length) :=
    { lexes := ⟨first, hb⟩
      isRun := hrun
      apart_before := hbefore
      apart_after := (Text.apart_letters_iff hne hletters).mpr hafter
      refused := (readRun_eq_error_iff hrun).mpr (.inr ⟨hletters, hword, rfl⟩) }
  exact hstops.lexWith_eq

theorem FaultAt.word_eq {s w : List Char} {p q : Nat} (h : FaultAt s p (.badOperand w q)) :
    wordAt s p = w := by
  cases h
  rfl

/-- The first part is lexed, but the word over the seam is no keyword, and it begins in the first
part. -/
theorem not_lexedInTurn_of_keyword {value : Bool}
    (hc : Text.Crossing isLowerLetter before (keyword value) right after)
    (hb : lex before = .ok first) :
    ¬LexedInTurn (before ++ keyword value) (right ++ after) := by
  intro h
  obtain ⟨word, hword, -⟩ := spells_keyword value
  have hleft := lex_append_of_ok (hc.apart_before _) hb hword
  have hwhole : lex (before ++ keyword value ++ (right ++ after)) =
      .error (.badOperand (keyword value ++ right) before.length) := by
    rw [List.append_assoc, ← List.append_assoc (keyword value)]
    refine lex_of_misspelt hb (hc.apart_before _) (by simp [hc.right_ne]) hc.letters hc.ends ?_
    exact fun other hother => hc.right_ne (Expression.keyword_isolated (a := []) hother).2
  -- In turn, nothing could be refused before the seam.
  cases hright : lex (right ++ after) with
  | ok second => cases hwhole.symm.trans (h.tokens _ _ hleft hright)
  | error e =>
    obtain ⟨e', he', -, -, hposition⟩ := h.second_error _ e hleft hright
    obtain rfl := Except.error.inj (hwhole.symm.trans he')
    have hpos := List.length_pos_iff.mpr hc.left_ne
    rw [LexicalError.position, List.length_append] at hposition
    omega

/-- The first part is refused for the beginning of the word over the seam, but an error of the whole
at that place tells all of the word. -/
theorem not_lexedInTurn_of_misspelt
    (hc : Text.Crossing isLowerLetter before left right after) (hb : lex before = .ok first)
    (hleft : ∀ value, left ≠ keyword value) : ¬LexedInTurn (before ++ left) (right ++ after) := by
  intro h
  have hpart : lex (before ++ left) = .error (.badOperand left before.length) := by
    have hrest : ∀ d ∈ ([] : List Char).head?, isLowerLetter d = false := fun d hd => nomatch hd
    simpa using lex_of_misspelt hb (hc.apart_before _) hc.left_ne hc.letters_left hrest hleft
  have hword := (fault_of_lex (h.first_error _ hpart)).2.2.word_eq
  rw [LexicalError.position, List.append_assoc, ← List.append_assoc left,
    wordAt_append hc.letters hc.ends] at hword
  exact hc.right_ne (List.append_right_eq_self.mp hword)

theorem exists_forall_error_of_lexedInTurn (hab : ¬Text.Apart isLowerLetter a b)
    (h : LexedInTurn a b) : ∃ e, ∀ rest, lex (a ++ rest) = .error e := by
  obtain ⟨before, left, right, after, rfl, rfl, hc⟩ := Text.exists_crossing hab
  cases hb : lex before with
  | error e =>
    -- The first part is refused before the word over the seam.
    refine ⟨e, fun rest => ?_⟩
    rw [List.append_assoc]
    exact lex_append_of_error (hc.apart_before _) hb
  | ok first =>
    by_cases hleft : ∃ value, left = keyword value
    · obtain ⟨value, rfl⟩ := hleft
      exact absurd h (not_lexedInTurn_of_keyword hc hb)
    · exact absurd h (not_lexedInTurn_of_misspelt hc hb (not_exists.mp hleft))

/-- Lexing distributes over a concatenation if the first text does not end with a letter or the
second does not begin with one. Where a word goes over the seam, this holds only if the first text
is refused whatever follows it. -/
theorem lex_append_inTurn (a b : List Char) :
    (Text.Apart isLowerLetter a b → LexedInTurn a b) ∧
      (¬Text.Apart isLowerLetter a b →
        (LexedInTurn a b ↔ ∃ e, ∀ rest, lex (a ++ rest) = .error e)) := by
  refine ⟨lexedInTurn_of_apart, fun hab => ⟨exists_forall_error_of_lexedInTurn hab, ?_⟩⟩
  rintro ⟨e, h⟩
  exact lexedInTurn_of_forall_error h

theorem lex_append_inTurn_lateFault :
    Text.Apart isLowerLetter "¬true".toList "∧ fals".toList ∧
      (∃ e, lex ("¬true".toList ++ "∧ fals".toList) = .error e ∧ e.code = "OPERAND_FORMAT" ∧
        e.position = 7) ∧
      ¬Text.Apart isLowerLetter "tr".toList "ue".toList ∧
        ¬LexedInTurn "tr".toList "ue".toList := by
  have happart : Text.Apart isLowerLetter "¬true".toList "∧ fals".toList :=
    Text.Apart.of_head (d := '∧') (by decide)
  have hfirst : lex "¬true".toList = .ok [⟨.operator .negation, 0⟩, ⟨.operand true, 1⟩] := by rfl
  have hsecond : lex "∧ fals".toList = .error (.badOperand "fals".toList 2) := by rfl
  obtain ⟨e, he, hcode, -, hposition⟩ :=
    ((lex_append_inTurn _ _).1 happart).second_error _ _ hfirst hsecond
  have hparted : ¬Text.Apart isLowerLetter "tr".toList "ue".toList := by
    intro h
    exact h 'r' rfl 'u' rfl ⟨rfl, rfl⟩
  refine ⟨happart, ⟨e, he, hcode, hposition⟩, hparted, fun h => ?_⟩
  obtain ⟨e, hrefused⟩ := ((lex_append_inTurn _ _).2 hparted).mp h
  have hwhole : lex ("tr".toList ++ "ue".toList) = .ok [⟨.operand true, 0⟩] := by rfl
  cases hwhole.symm.trans (hrefused "ue".toList)

end Token

end Sentential
