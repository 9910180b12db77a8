import Sentential.Proofs.Equivalence
import Sentential.Proofs.Uniformity

/-!
# Spaces in a text

A space put into a text, but not between two letters, is passed over, and all that stands behind it
stands one place further. So the text reads as before, or it is refused as before, with the place of
the error moved if it lies behind the space. Replacing variables moves the space with the rest of
the text, so the same holds of every row of a table.
-/
namespace Sentential

/-- Where an offset lands when one character is put in at a place of the text. -/
def slide (place offset : Nat) : Nat := if offset < place then offset else offset + 1

theorem slide_of_lt {place offset : Nat} (h : offset < place) : slide place offset = offset :=
  if_pos h

theorem slide_add (place offset : Nat) : slide place (offset + place) = offset + 1 + place := by
  rw [slide, if_neg (by omega)]
  omega

namespace LexicalError

theorem map_slide_of_lt {place : Nat} {e : LexicalError} (h : e.position < place) :
    e.map id (slide place) = e := by
  cases e with
  | unknownCharacter c position => exact congrArg (unknownCharacter c) (slide_of_lt h)
  | badOperand word position => exact congrArg (badOperand word) (slide_of_lt h)

theorem map_slide_shift (place : Nat) (e : LexicalError) :
    (e.shift place).map id (slide place) = (e.shift 1).shift place := by
  cases e with
  | unknownCharacter c position => exact congrArg (unknownCharacter c) (slide_add place position)
  | badOperand word position => exact congrArg (badOperand word) (slide_add place position)

end LexicalError

namespace Token

variable {α : Type} {v : Vocabulary α} {s t : List Char}

theorem map_slide_of_lt {place : Nat} {x : Token α} (h : x.position < place) :
    x.map id (slide place) = x := by
  obtain ⟨lexeme, position⟩ := x
  cases lexeme <;> exact congrArg (Token.mk _) (slide_of_lt h)

theorem map_slide_shift (place : Nat) (x : Token α) :
    (x.shift place).map id (slide place) = (x.shift 1).shift place := by
  obtain ⟨lexeme, position⟩ := x
  cases lexeme <;> exact congrArg (Token.mk _) (slide_add place position)

theorem lexWith_space (hv : v.Plain) :
    lexWith v (' ' :: t) = ((lexWith v t).map (List.map (shift 1))).mapError (.shift 1) := by
  have hspace : lexWith v [' '] = .ok [] := by
    have hs : readSymbol (α := α) 0 ' ' = .ok none := rfl
    simp [lexWith, Text.runs_singleton, readRuns, readRun, hv.space, hs]
  rw [← List.singleton_append, lexWith_append (.of_last hv.space), hspace]
  cases lexWith v t <;> rfl

/-- A space between texts that are apart moves the tokens and the error behind it by one place. -/
theorem lexWith_insertSpace (hv : v.Plain) (h : Text.Apart v.isLetter s t) :
    lexWith v (s ++ ' ' :: t) =
      ((lexWith v (s ++ t)).map (List.map (Token.map id (slide s.length)))).mapError
        (.map id (slide s.length)) := by
  rw [lexWith_append (.of_head hv.space), lexWith_append h, lexWith_space hv]
  cases hs : lexWith v s with
  | error e =>
    have he := LexicalError.map_slide_of_lt (position_lt_of_lexWith hs)
    exact congrArg Except.error he.symm
  | ok before =>
    cases lexWith v t with
    | error e => exact congrArg Except.error (LexicalError.map_slide_shift s.length e).symm
    | ok after =>
      have hb : before.map (Token.map id (slide s.length)) = before := by
        refine (List.map_congr_left fun x hx => ?_).trans (List.map_id before)
        exact map_slide_of_lt ((positions_of_lexWith hs).2 x hx)
      have ha : (after.map (shift s.length)).map (Token.map id (slide s.length)) =
          (after.map (shift 1)).map (shift s.length) := by
        rw [List.map_map, List.map_map]
        exact List.map_congr_left fun x _ => map_slide_shift s.length x
      refine congrArg Except.ok ?_
      rw [List.map_append, hb, ha]

end Token

/-- The error with its place moved by a space at an offset. -/
def SyntaxError.slide (place : Nat) : SyntaxError → SyntaxError
  | lexical e => lexical (e.map id (Sentential.slide place))
  | grammatical e => grammatical (e.map id (Sentential.slide place))

namespace Expression

variable {s t : List Char}

theorem parse_insertSpace (h : Text.Apart isLowerLetter s t) :
    parse (s ++ ' ' :: t) = (parse (s ++ t)).mapError (.slide s.length) := by
  have hlex := Token.lexWith_insertSpace Vocabulary.plain_closed h
  rw [parse, parse, Token.lex, Token.lex, hlex]
  cases Token.lexWith .closed (s ++ t) with
  | error e => rfl
  | ok tokens =>
    simp only [Except.map, Except.mapError, Parser.parse_map]
    cases Parser.parse tokens with
    | error failure => rfl
    | ok f => exact congrArg Except.ok f.map_id

theorem Phrase.insertSpace {c : Category} {φ : Formula Atom} (h : Text.Apart isAsciiLetter s t)
    (hφ : Phrase c (s ++ t) φ) : Phrase c (s ++ ' ' :: t) φ := by
  have plain := Vocabulary.plain_atoms
  obtain ⟨w, hw, hd⟩ := hφ
  obtain ⟨before, after, hb, ha, rfl⟩ := (Token.Spells.append_iff h).mp hw
  exact ⟨before ++ after, hb.append_cons plain.space (.space plain ha), hd⟩

theorem freeVariables_insertSpace (s t : List Char) :
    freeVariables (s ++ ' ' :: t) = freeVariables (s ++ t) := by
  have hspace : isVariable ' ' = false := by decide
  refine freeVariables_ext fun v => ?_
  simp only [mem_freeVariables, List.mem_append, List.mem_cons]
  constructor
  · rintro ⟨hs | rfl | ht, hv⟩
    · exact ⟨.inl hs, hv⟩
    · simp [hspace] at hv
    · exact ⟨.inr ht, hv⟩
  · rintro ⟨hs | ht, hv⟩
    · exact ⟨.inl hs, hv⟩
    · exact ⟨.inr (.inr ht), hv⟩

/-- A space stays where it is when variables are replaced, and so do the texts around it. -/
theorem parse_expand_insertSpace (ν : String → Bool) (h : Text.Apart isAsciiLetter s t) :
    parse (expand ν (s ++ ' ' :: t)) =
      (parse (expand ν (s ++ t))).mapError (.slide (expand ν s).length) := by
  have happart : Text.Apart isLowerLetter (expand ν s) (expand ν t) :=
    h.flatMap fun _ => expandChar_of_not_isAsciiLetter
  have hspace : expandChar ν ' ' = [' '] := expandChar_of_not_isCapital (by decide)
  have hleft : expand ν (s ++ ' ' :: t) = expand ν s ++ ' ' :: expand ν t := by
    simp only [expand, List.flatMap_append, List.flatMap_cons, hspace, List.singleton_append]
  rw [hleft, parse_insertSpace happart, expand, expand, expand, List.flatMap_append]

end Expression

/-! ## A space in a text and its table -/

/-- The text with a space put in at an offset. -/
def insertSpace (place : Nat) (e : String) : String :=
  String.ofList (e.toList.take place ++ ' ' :: e.toList.drop place)

theorem toList_insertSpace (place : Nat) (e : String) :
    (insertSpace place e).toList = e.toList.take place ++ ' ' :: e.toList.drop place :=
  String.toList_ofList

/-- Both fail with related errors, or both succeed with related results. -/
inductive Correspond {ε α : Type} (errors : ε → ε → Prop) (results : α → α → Prop) :
    Except ε α → Except ε α → Prop where
  | error {x y : ε} : errors x y → Correspond errors results (.error x) (.error y)
  | ok {a b : α} : results a b → Correspond errors results (.ok a) (.ok b)

/-- Two errors of one class and kind, both at the end of the input or the second one where the place
of the first lands behind a space at the offset. -/
structure SyntaxError.Moved (place : Nat) (x y : SyntaxError) : Prop where
  alike : x.Alike y
  position? : y.position? = x.position?.map (Sentential.slide place)

inductive TableError.Moved (place : Nat) : TableError → TableError → Prop where
  | excess (e : VariableExcess) : TableError.Moved place (.excess e) (.excess e)
  | malformed {x y : SyntaxError} : x.Moved place y →
      TableError.Moved place (.evaluation (.malformed x)) (.evaluation (.malformed y))

/-- Two tables that differ at most in the text of their expression. -/
structure TruthTable.SameAnswers (t u : TruthTable) : Prop where
  names : u.names = t.names
  rows : u.rows = t.rows
  disjunctiveForm : u.disjunctiveForm = t.disjunctiveForm
  conjunctiveForm : u.conjunctiveForm = t.conjunctiveForm
  format : u.format = t.format

theorem SyntaxError.moved_slide (place : Nat) (e : SyntaxError) : e.Moved place (e.slide place) := by
  cases e with
  | lexical e =>
    refine ⟨.lexical (LexicalError.code_map id _ e).symm, ?_⟩
    simp only [SyntaxError.slide, position?, LexicalError.position_map, Option.map_some]
  | grammatical e =>
    exact ⟨.grammatical (GrammarError.code_map id _ e).symm, GrammarError.position?_map id _ e⟩

theorem TruthTable.SameAnswers.mk_rows {t u : TruthTable} (hnames : u.names = t.names)
    (hrows : u.rows = t.rows) : t.SameAnswers u where
  names := hnames
  rows := hrows
  disjunctiveForm := (forms_eq_of_rows_eq hrows).1
  conjunctiveForm := (forms_eq_of_rows_eq hrows).2
  format := by simp only [TruthTable.format, printedLines, headCells, hnames, hrows]

namespace TruthTable

theorem variablesOf_insertSpace (place : Nat) (e : String) :
    variablesOf (insertSpace place e) = variablesOf e := by
  rw [variablesOf, toList_insertSpace, Expression.freeVariables_insertSpace, List.take_append_drop,
    variablesOf]

theorem build_insertSpace {e : String} {place : Nat}
    (h : Text.Apart isAsciiLetter (e.toList.take place) (e.toList.drop place))
    (limit : Option Int) :
    Correspond (TableError.Moved (Expression.expandedOffset (fun _ => false) e.toList place))
      SameAnswers (build e limit) (build (insertSpace place e) limit) := by
  have hvars := variablesOf_insertSpace place e
  cases hl : exceeds (variablesOf e).length limit with
  | some bound =>
    simp only [build, hvars, hl]
    exact .error (.excess _)
  | none =>
    have hl' : exceeds (variablesOf (insertSpace place e)).length limit = none := by rwa [hvars]
    have hparse := Expression.parse_expand_insertSpace (fun _ => false) h
    rw [← toList_insertSpace, List.take_append_drop] at hparse
    cases hp : Expression.parse (Expression.expand (fun _ => false) e.toList) with
    | error x =>
      rw [hp] at hparse
      rw [build_eq_error hl hp, build_eq_error hl' hparse]
      exact .error (.malformed (x.moved_slide _))
    | ok f =>
      obtain ⟨φ, hφ, -⟩ := Expression.parse_expand_eq_ok_iff.mp hp
      have hφ' : Expression.Phrase .expression (insertSpace place e).toList φ := by
        rw [toList_insertSpace]
        exact .insertSpace h (by rwa [List.take_append_drop])
      rw [build_of_phrase_within hφ hl, build_of_phrase_within hφ' hl']
      exact .ok (.mk_rows hvars (by rw [hvars]))

/-- A space put in between two characters that are not both letters changes no answer. Closed, the
text reads as the same formula, open it has the same table, and if it is refused, then with the same
kind of error, in the same place or one further if that place is behind the space. The places of a
table are those of its first row, where every variable is replaced by false. -/
theorem insertSpace_sameAnswers (e : String) (place : Nat) (hplace : place ≤ e.length)
    (h : Text.Apart isAsciiLetter (e.toList.take place) (e.toList.drop place)) :
    Correspond (SyntaxError.Moved place) (· = ·) (Expression.parse e.toList)
        (Expression.parse (insertSpace place e).toList) ∧
      ∃ front, Expression.substitute ((variablesOf e).map (·, false)) (e.toList.take place) =
          .ok front ∧
        ∀ limit, Correspond (TableError.Moved front.length) SameAnswers (build e limit)
          (build (insertSpace place e) limit) := by
  refine ⟨?_, _, Expression.substitute_eq ((agrees_false e).take place), build_insertSpace h⟩
  have hlength : (e.toList.take place).length = place := by
    rw [List.length_take, String.length_toList, Nat.min_eq_left hplace]
  have happart : Text.Apart isLowerLetter (e.toList.take place) (e.toList.drop place) := by
    intro c hc d hd hcd
    exact h c hc d hd (by simp [isAsciiLetter, hcd])
  have hparse := Expression.parse_insertSpace happart
  rw [← toList_insertSpace, List.take_append_drop, hlength] at hparse
  rw [hparse]
  cases Expression.parse e.toList with
  | error x => exact .error (x.moved_slide place)
  | ok f => exact .ok rfl

theorem insertSpace_sameAnswers_strayBracket :
    3 ≤ "A∧B)C".length ∧
      Text.Apart isAsciiLetter ("A∧B)C".toList.take 3) ("A∧B)C".toList.drop 3) ∧
      build "A∧B)C" none =
        .error (.evaluation (.malformed (.grammatical (.unexpected ⟨.bracket .right, 11⟩)))) ∧
      insertSpace 3 "A∧B)C" = "A∧B )C" ∧
      ∃ y, build "A∧B )C" none = .error (.evaluation (.malformed y)) ∧
        y.code = "UNMATCHED_TOKEN" ∧ y.position? = some 12 := by
  have happart : Text.Apart isAsciiLetter ("A∧B)C".toList.take 3) ("A∧B)C".toList.drop 3) :=
    Text.Apart.of_head (a := ['A', '∧', 'B']) (d := ')') (b := ['C']) (by decide)
  have he : build "A∧B)C" none =
      .error (.evaluation (.malformed (.grammatical (.unexpected ⟨.bracket .right, 11⟩)))) := by
    rfl
  have htext : insertSpace 3 "A∧B)C" = "A∧B )C" := by rfl
  have hfirst : Expression.substitute ((variablesOf "A∧B)C").map (·, false))
      ("A∧B)C".toList.take 3) = .ok "false∧false".toList := by rfl
  refine ⟨by decide, happart, he, htext, ?_⟩
  obtain ⟨-, front, hfront, htable⟩ := insertSpace_sameAnswers "A∧B)C" 3 (by decide) happart
  obtain rfl := Except.ok.inj (hfirst.symm.trans hfront)
  have hpair := htable none
  rw [he, htext] at hpair
  generalize build "A∧B )C" none = outcome at hpair
  cases hpair with
  | error herror =>
    cases herror with
    | @malformed _ y hmoved => exact ⟨y, rfl, hmoved.alike.code_eq.symm, hmoved.position?⟩

end TruthTable

end Sentential
