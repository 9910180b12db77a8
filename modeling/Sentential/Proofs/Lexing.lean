import Mathlib.Data.List.TakeWhile
import Sentential.Proofs.Grammar
import Sentential.Token.Lexer

/-!
# Lexing piece by piece

Two texts are apart if no run of letters goes over from the first into the second. Texts that are
apart are cut into runs and read one after the other, the second with its positions moved. So what a
text spells can be put together from what single characters and words spell.
-/
namespace Sentential

namespace Text

variable {p : Char → Bool}

/-- No run of the class goes over from the first text into the second. -/
def Apart (p : Char → Bool) (a b : List Char) : Prop :=
  ∀ c ∈ a.getLast?, ∀ d ∈ b.head?, ¬(p c ∧ p d)

theorem Apart.of_last {c : Char} {b : List Char} (hc : p c = false) : Apart p [c] b := by
  intro x hx y _ hxy
  obtain rfl := Option.some.inj hx
  simp [hc] at hxy

theorem Apart.of_concat {a : List Char} {c : Char} {b : List Char} (hc : p c = false) :
    Apart p (a ++ [c]) b := by
  intro x hx
  rw [List.getLast?_concat] at hx
  exact Apart.of_last hc x hx

theorem Apart.of_head {a : List Char} {d : Char} {b : List Char} (hd : p d = false) :
    Apart p a (d :: b) := by
  intro x _ y hy hxy
  obtain rfl := Option.some.inj hy
  simp [hd] at hxy

theorem runs_cons (p : Char → Bool) (c : Char) (s : List Char) :
    ∃ run more, runs p (c :: s) = (c :: run) :: more := by
  rw [runs]
  split
  · next d run more h =>
    split
    · exact ⟨d :: run, more, rfl⟩
    · exact ⟨[], (d :: run) :: more, rfl⟩
  · exact ⟨[], _, rfl⟩

theorem runs_append {a b : List Char} (h : Apart p a b) :
    runs p (a ++ b) = runs p a ++ runs p b := by
  induction a with
  | nil => rfl
  | cons c a ih =>
    cases a with
    | nil =>
      cases b with
      | nil => rfl
      | cons d b =>
        obtain ⟨run, more, hr⟩ := runs_cons p d b
        have hcd : (p c && p d) = false := by simpa using h c rfl d rfl
        rw [List.singleton_append, runs.eq_2, hr]
        simp [hcd, runs]
    | cons x a =>
      have hxa : runs p (x :: a ++ b) = runs p (x :: a) ++ runs p b :=
        ih fun y hy => h y (by rwa [List.getLast?_cons_cons])
      obtain ⟨run, more, hr⟩ := runs_cons p x a
      rw [hr] at hxa
      rw [List.cons_append, runs.eq_2, runs.eq_2 p c (x :: a), hxa, hr]
      by_cases hcx : (p c && p x) = true
      · simp [hcx]
      · simp [hcx]

theorem runs_singleton (p : Char → Bool) (c : Char) : runs p [c] = [[c]] := rfl

theorem runs_of_forall {w : List Char} (hne : w ≠ []) (hw : ∀ c ∈ w, p c) : runs p w = [w] := by
  induction w with
  | nil => exact absurd rfl hne
  | cons c w ih =>
    cases w with
    | nil => rfl
    | cons d w =>
      simp only [List.forall_mem_cons] at hw ih
      rw [runs.eq_2, ih (List.cons_ne_nil d w) hw.2]
      simp [hw.1, hw.2.1]

inductive IsRun (p : Char → Bool) : List Char → Prop where
  | letters {w : List Char} : w ≠ [] → (∀ c ∈ w, p c) → IsRun p w
  | single {c : Char} : p c = false → IsRun p [c]

theorem IsRun.runs_append {w s : List Char} (hw : IsRun p w) (ha : Apart p w s) :
    runs p (w ++ s) = w :: runs p s := by
  rw [Text.runs_append ha]
  cases hw with
  | letters hne hw => rw [runs_of_forall hne hw, List.singleton_append]
  | single => rw [runs_singleton, List.singleton_append]

theorem exists_first_run (p : Char → Bool) (c : Char) (s : List Char) :
    ∃ w t, c :: s = w ++ t ∧ t.length ≤ s.length ∧ IsRun p w ∧ Apart p w t := by
  by_cases hc : p c = true
  · have hsplit : c :: s = (c :: s.takeWhile p) ++ s.dropWhile p := by simp
    have hletters : ∀ d ∈ c :: s.takeWhile p, p d := by
      simpa [hc] using fun d hd => List.mem_takeWhile_imp hd
    refine ⟨_, _, hsplit, List.length_dropWhile_le p s, .letters (by simp) hletters, ?_⟩
    intro x _ d hd hxd
    have hstop := List.head?_dropWhile_not p s
    rw [Option.mem_def.mp hd] at hstop
    simp [hxd.2] at hstop
  · simp only [Bool.not_eq_true] at hc
    exact ⟨[c], s, rfl, Nat.le_refl _, .single hc, .of_last hc⟩

/-- A text is empty or a run in front of a text that is apart from it. -/
@[elab_as_elim]
theorem run_induction {P : List Char → Prop} (nil : P [])
    (append : ∀ w s, IsRun p w → Apart p w s → P s → P (w ++ s)) (s : List Char) : P s := by
  induction hn : s.length using Nat.strong_induction_on generalizing s with
  | _ n ih =>
    cases s with
    | nil => exact nil
    | cons c s =>
      obtain ⟨w, t, hs, hlength, hw, ha⟩ := exists_first_run p c s
      rw [List.length_cons] at hn
      rw [hs]
      exact append w t hw ha (ih t.length (by omega) t rfl)

theorem isRun_of_mem_runs {s run : List Char} (h : run ∈ runs p s) : IsRun p run := by
  induction s using run_induction (p := p) with
  | nil => cases h
  | append w s hw ha ih =>
    rw [hw.runs_append ha] at h
    rcases List.mem_cons.mp h with rfl | h
    · exact hw
    · exact ih h

section Replaced

variable {q : Char → Bool} {f : Char → List Char}

theorem IsRun.flatMap (hne : ∀ c, f c ≠ []) (hp : ∀ c, p c → ∀ d ∈ f c, q d)
    (hn : ∀ c, p c = false → f c = [c] ∧ q c = false) {w : List Char} (hw : IsRun p w) :
    IsRun q (w.flatMap f) := by
  cases hw with
  | letters hw hletters =>
    refine .letters ?_ fun d hd => ?_
    · obtain ⟨c, w, rfl⟩ := List.exists_cons_of_ne_nil hw
      simp [hne]
    · obtain ⟨c, hc, hd⟩ := List.mem_flatMap.mp hd
      exact hp c (hletters c hc) d hd
  | @single c hc =>
    rw [List.flatMap_singleton, (hn c hc).1]
    exact .single (hn c hc).2

/-- Texts that are apart stay so, as characters that are no letters are not replaced. -/
theorem Apart.flatMap (hn : ∀ c, p c = false → f c = [c] ∧ q c = false) {s t : List Char}
    (h : Apart p s t) : Apart q (s.flatMap f) (t.flatMap f) := by
  cases t with
  | nil => simp [Apart]
  | cons d t =>
    by_cases hd : p d = true
    · rcases List.eq_nil_or_concat s with rfl | ⟨s, c, rfl⟩
      · simp [Apart]
      · have hc : p c = false := by simpa [hd] using h c (by simp) d rfl
        rw [List.concat_eq_append, List.flatMap_append, List.flatMap_singleton, (hn c hc).1]
        exact .of_concat (hn c hc).2
    · rw [Bool.not_eq_true] at hd
      rw [List.flatMap_cons, (hn d hd).1]
      exact .of_head (hn d hd).2

/-- The runs of a text whose letters are replaced by words of another class. -/
theorem runs_flatMap (hne : ∀ c, f c ≠ []) (hp : ∀ c, p c → ∀ d ∈ f c, q d)
    (hn : ∀ c, p c = false → f c = [c] ∧ q c = false) (s : List Char) :
    runs q (s.flatMap f) = (runs p s).map (List.flatMap f) := by
  induction s using run_induction (p := p) with
  | nil => rfl
  | append w s hw ha ih =>
    rw [List.flatMap_append, (hw.flatMap hne hp hn).runs_append (ha.flatMap hn), ih,
      hw.runs_append ha, List.map_cons]

end Replaced

end Text

variable {α β : Type}

def LexicalError.map (spell : List Char → List Char) (move : Nat → Nat) :
    LexicalError → LexicalError
  | unknownCharacter c position => unknownCharacter c (move position)
  | badOperand word position => badOperand (spell word) (move position)

theorem LexicalError.map_id_add (k : Nat) : LexicalError.map id (· + k) = shift k := by
  funext e
  cases e <;> rfl

namespace Token

def map (f : α → β) (move : Nat → Nat) (t : Token α) : Token β :=
  ⟨t.lexeme.map f, move t.position⟩

theorem map_id_add (k : Nat) : Token.map (α := α) id (· + k) = shift k := by
  funext ⟨lexeme, position⟩
  cases lexeme <;> rfl

theorem readSymbol_map (f : α → β) (spell : List Char → List Char) (move : Nat → Nat)
    (position : Nat) (c : Char) :
    readSymbol (move position) c =
      ((readSymbol position c).map (Option.map (Lexeme.map f))).mapError (.map spell move) := by
  unfold readSymbol
  split
  · rfl
  · simp only [apply_ite (Except.map (Option.map (Lexeme.map f))),
      apply_ite (Except.mapError (LexicalError.map spell move))]
    rfl

theorem readRun_letters {v : Vocabulary α} {w : List Char} (hne : w ≠ [])
    (hw : ∀ c ∈ w, v.isLetter c) (position : Nat) :
    readRun v position w = readWord v position w := by
  obtain ⟨c, rest, rfl⟩ := List.exists_cons_of_ne_nil hne
  exact if_pos (hw c List.mem_cons_self)

theorem readRun_single {v : Vocabulary α} {c : Char} (hc : v.isLetter c = false)
    (position : Nat) : readRun v position [c] = readSymbol position c :=
  if_neg (by simp [hc])

/-- If every run is read as its counterpart is, then so are all of them in a row. -/
theorem readRuns_map {v : Vocabulary α} {v' : Vocabulary β} {f : α → β}
    {spell : List Char → List Char} {move : Nat → Nat} (position : Nat) {runs : List (List Char)}
    (hread : ∀ run ∈ runs, ∀ position, readRun v' (move position) (spell run) =
      ((readRun v position run).map (Option.map (Lexeme.map f))).mapError (.map spell move))
    (hmove : ∀ before run after, runs = before ++ run :: after →
      move (position + before.flatten.length + run.length) =
        move (position + before.flatten.length) + (spell run).length) :
    readRuns v' (move position) (runs.map spell) =
      ((readRuns v position runs).map (List.map (Token.map f move))).mapError
        (.map spell move) := by
  induction runs generalizing position with
  | nil => rfl
  | cons run more ih =>
    have hp : move position + (spell run).length = move (position + run.length) :=
      (hmove [] run more rfl).symm
    have hr := ih (position + run.length)
      (fun r hr => hread r (List.mem_cons_of_mem run hr)) fun before r after h => by
        have hm := hmove (run :: before) r after (by rw [h, List.cons_append])
        rwa [List.flatten_cons, List.length_append, ← Nat.add_assoc] at hm
    simp only [List.map_cons, readRuns, hread run List.mem_cons_self, hp, hr]
    cases readRun v position run with
    | error e => rfl
    | ok lexeme =>
      cases lexeme with
      | none => rfl
      | some lexeme => cases readRuns v (position + run.length) more <;> rfl

theorem readRuns_add (v : Vocabulary α) (position k : Nat) (runs : List (List Char)) :
    readRuns v (position + k) runs =
      ((readRuns v position runs).map (List.map (shift k))).mapError (.shift k) := by
  have hread : ∀ run ∈ runs, ∀ position, readRun v (position + k) run =
      ((readRun v position run).map (Option.map (Lexeme.map id))).mapError (.map id (· + k)) := by
    intro run _ position
    cases run with
    | nil => rfl
    | cons c rest =>
      simp only [readRun, readWord]
      split
      · split <;> rfl
      · exact readSymbol_map id id (· + k) position c
  have hmove : ∀ before run after, runs = before ++ run :: after →
      position + before.flatten.length + run.length + k =
        position + before.flatten.length + k + run.length := by
    intro before run after _
    omega
  have h : readRuns v (position + k) (runs.map id) =
      ((readRuns v position runs).map (List.map (map id (· + k)))).mapError (.map id (· + k)) :=
    readRuns_map position hread hmove
  rwa [List.map_id, map_id_add, LexicalError.map_id_add] at h

theorem readRuns_append (v : Vocabulary α) (position : Nat) (before after : List (List Char)) :
    readRuns v position (before ++ after) =
      (readRuns v position before).bind fun first =>
        (readRuns v (position + before.flatten.length) after).map (first ++ ·) := by
  induction before generalizing position with
  | nil =>
    change readRuns v position after = (readRuns v position after).map ([] ++ ·)
    cases readRuns v position after <;> rfl
  | cons run more ih =>
    simp only [List.cons_append, readRuns, ih, List.flatten_cons, List.length_append,
      ← Nat.add_assoc]
    cases readRun v position run with
    | error e => rfl
    | ok lexeme =>
      cases lexeme with
      | none => rfl
      | some lexeme =>
        cases readRuns v (position + run.length) more with
        | error e => rfl
        | ok first =>
          simp only [Except.bind]
          cases readRuns v (position + run.length + more.flatten.length) after <;> rfl

/-- Two texts that are apart are lexed one after the other. -/
theorem lexWith_append {v : Vocabulary α} {s t : List Char} (h : Text.Apart v.isLetter s t) :
    lexWith v (s ++ t) =
      (lexWith v s).bind fun first =>
        (((lexWith v t).map (List.map (shift s.length))).mapError (.shift s.length)).map
          (first ++ ·) := by
  simp only [lexWith, Text.runs_append h, readRuns_append, Text.flatten_runs, readRuns_add]

theorem operand?_of_readRun {v : Vocabulary α} {position : Nat} {run : List Char} {value : α}
    (h : readRun v position run = .ok (some (.operand value))) : v.operand? run = some value := by
  unfold readRun at h
  split at h
  · cases h
  · next c rest =>
    split at h
    · unfold readWord at h
      split at h
      · next hv => simpa [hv] using h
      · cases h
    · unfold readSymbol at h
      split at h
      · simp at h
      · repeat' split at h
        all_goals simp at h

theorem readRun_of_mem {v : Vocabulary α} {position : Nat} {runs : List (List Char)}
    {tokens : List (Token α)} {run : List Char} (h : readRuns v position runs = .ok tokens)
    (hr : run ∈ runs) : ∃ place lexeme, readRun v place run = .ok lexeme := by
  induction runs generalizing position tokens with
  | nil => cases hr
  | cons first more ih =>
    rw [readRuns] at h
    split at h
    · cases h
    · next hf =>
      rcases List.mem_cons.mp hr with rfl | hr
      · exact ⟨position, _, hf⟩
      · exact ih h hr
    · next lexeme hf =>
      split at h
      · cases h
      · next rest hm =>
        rcases List.mem_cons.mp hr with rfl | hr
        · exact ⟨position, _, hf⟩
        · exact ih hm hr

/-- A text that can be lexed holds only letters and symbols. -/
theorem readSymbol_of_lexWith {v : Vocabulary α} {s : List Char} {tokens : List (Token α)}
    {c : Char} (h : lexWith v s = .ok tokens) (hc : c ∈ s) (hl : v.isLetter c = false) :
    ∃ place lexeme, readSymbol (α := α) place c = .ok lexeme := by
  rw [← Text.flatten_runs v.isLetter s, List.mem_flatten] at hc
  obtain ⟨run, hr, hmem⟩ := hc
  cases Text.isRun_of_mem_runs hr with
  | letters _ hw => simp [hw c hmem] at hl
  | single =>
    obtain rfl := List.mem_singleton.mp hmem
    obtain ⟨place, lexeme, ho⟩ := readRun_of_mem h hr
    rw [readRun_single hl] at ho
    exact ⟨place, lexeme, ho⟩

theorem exists_run_of_mem {v : Vocabulary α} {s : List Char} {tokens : List (Token α)}
    {t : Token α} {value : α} (h : lexWith v s = .ok tokens) (ht : t ∈ tokens)
    (hv : t.lexeme.operand? = some value) :
    ∃ run ∈ Text.runs v.isLetter s, v.operand? run = some value := by
  unfold lexWith at h
  generalize Text.runs v.isLetter s = runs at h ⊢
  generalize (0 : Nat) = position at h
  induction runs generalizing position tokens with
  | nil =>
    obtain rfl := Except.ok.inj h
    cases ht
  | cons run more ih =>
    have hmore {position : Nat} {tokens : List (Token α)}
        (hr : readRuns v position more = .ok tokens) (hm : t ∈ tokens) :
        ∃ r ∈ run :: more, v.operand? r = some value := by
      obtain ⟨r, hr, ho⟩ := ih hm position hr
      exact ⟨r, List.mem_cons_of_mem run hr, ho⟩
    rw [readRuns] at h
    split at h
    · cases h
    · exact hmore h ht
    · next lexeme hl =>
      split at h
      · cases h
      · next rest hr =>
        obtain rfl := Except.ok.inj h
        rcases List.mem_cons.mp ht with rfl | ht
        · cases lexeme with
          | operand a =>
            obtain rfl := Option.some.inj hv
            exact ⟨run, List.mem_cons_self, operand?_of_readRun hl⟩
          | operator op => cases hv
          | bracket side => cases hv
        · exact hmore hr ht

/-! ## Positions -/

theorem position_of_readRun {v : Vocabulary α} {position : Nat} {run : List Char}
    {e : LexicalError} (h : readRun v position run = .error e) :
    run ≠ [] ∧ e.position = position := by
  unfold readRun at h
  split at h
  · cases h
  · refine ⟨List.cons_ne_nil _ _, ?_⟩
    split at h
    · unfold readWord at h
      split at h
      · cases h
      · rw [← Except.error.inj h, LexicalError.position]
    · unfold readSymbol at h
      split at h
      · cases h
      · split_ifs at h
        rw [← Except.error.inj h, LexicalError.position]

theorem ne_nil_of_readRun {v : Vocabulary α} {position : Nat} {run : List Char} {l : Lexeme α}
    (h : readRun v position run = .ok (some l)) : run ≠ [] := by
  rintro rfl
  cases h

/-- Tokens stand in the order of their positions, which lie inside the text that is read. -/
theorem positions_of_readRuns {v : Vocabulary α} {position : Nat} {runs : List (List Char)}
    {tokens : List (Token α)} (h : readRuns v position runs = .ok tokens) :
    tokens.Pairwise (·.position < ·.position) ∧
      ∀ t ∈ tokens, position ≤ t.position ∧ t.position < position + runs.flatten.length := by
  induction runs generalizing position tokens with
  | nil =>
    obtain rfl := Except.ok.inj h
    exact ⟨.nil, fun t ht => nomatch ht⟩
  | cons run more ih =>
    rw [List.flatten_cons, List.length_append]
    rw [readRuns] at h
    split at h
    · cases h
    · obtain ⟨hsorted, hinside⟩ := ih h
      refine ⟨hsorted, fun t ht => ?_⟩
      have := hinside t ht
      omega
    · next l hl =>
      split at h
      · cases h
      · next rest hr =>
        obtain rfl := Except.ok.inj h
        obtain ⟨hsorted, hinside⟩ := ih hr
        have hrun := List.length_pos_iff.mpr (ne_nil_of_readRun hl)
        refine ⟨List.pairwise_cons.mpr ⟨fun t ht => ?_, hsorted⟩, fun t ht => ?_⟩
        · have := hinside t ht
          dsimp only
          omega
        · rcases List.mem_cons.mp ht with rfl | ht
          · dsimp only
            omega
          · have := hinside t ht
            omega

theorem position_of_readRuns {v : Vocabulary α} {position : Nat} {runs : List (List Char)}
    {e : LexicalError} (h : readRuns v position runs = .error e) :
    e.position < position + runs.flatten.length := by
  induction runs generalizing position with
  | nil => cases h
  | cons run more ih =>
    rw [List.flatten_cons, List.length_append]
    rw [readRuns] at h
    split at h
    · next hr =>
      obtain rfl := Except.error.inj h
      obtain ⟨hne, hp⟩ := position_of_readRun hr
      have := List.length_pos_iff.mpr hne
      omega
    · have := ih h
      omega
    · split at h
      · next hr =>
        obtain rfl := Except.error.inj h
        have := ih hr
        omega
      · cases h

theorem positions_of_lexWith {v : Vocabulary α} {s : List Char} {tokens : List (Token α)}
    (h : lexWith v s = .ok tokens) :
    tokens.Pairwise (·.position < ·.position) ∧ ∀ t ∈ tokens, t.position < s.length := by
  obtain ⟨hsorted, hinside⟩ := positions_of_readRuns h
  rw [Text.flatten_runs, Nat.zero_add] at hinside
  exact ⟨hsorted, fun t ht => (hinside t ht).2⟩

theorem position_lt_of_lexWith {v : Vocabulary α} {s : List Char} {e : LexicalError}
    (h : lexWith v s = .error e) : e.position < s.length := by
  have he := position_of_readRuns h
  rwa [Text.flatten_runs, Nat.zero_add] at he

/-! ## What a text spells -/

/-- Lexing the text gives the lexemes, at whatever positions. -/
def Spells (v : Vocabulary α) (s : List Char) (w : List (Lexeme α)) : Prop :=
  ∃ tokens, lexWith v s = .ok tokens ∧ tokens.map lexeme = w

end Token

/-- Glyphs, brackets and spaces are not letters. -/
structure Vocabulary.Plain {α : Type} (v : Vocabulary α) : Prop where
  operator : ∀ op : Operator, v.isLetter op.symbol = false
  bracket : ∀ side : Side, v.isLetter side.symbol = false
  space : v.isLetter ' ' = false

theorem Vocabulary.plain_closed : Vocabulary.closed.Plain where
  operator op := by rcases op with _ | (_ | _ | _ | _) <;> decide
  bracket side := by cases side <;> decide
  space := by decide

namespace Token.Spells

variable {α : Type} {v : Vocabulary α} {s t : List Char} {u w : List (Lexeme α)} {c : Char}

theorem nil (v : Vocabulary α) : Spells v [] [] := ⟨[], rfl, rfl⟩

theorem append (hs : Spells v s u) (ht : Spells v t w) (h : Text.Apart v.isLetter s t) :
    Spells v (s ++ t) (u ++ w) := by
  obtain ⟨before, hb, rfl⟩ := hs
  obtain ⟨after, ha, rfl⟩ := ht
  refine ⟨before ++ after.map (shift s.length), ?_, ?_⟩
  · rw [lexWith_append h, hb, ha]
    rfl
  · rw [List.map_append, List.map_map]
    rfl

theorem append_iff (h : Text.Apart v.isLetter s t) :
    Spells v (s ++ t) w ↔ ∃ before after, Spells v s before ∧ Spells v t after ∧
      before ++ after = w := by
  constructor
  · rintro ⟨tokens, hl, rfl⟩
    rw [lexWith_append h] at hl
    cases hs : lexWith v s with
    | error e =>
      rw [hs] at hl
      cases hl
    | ok before =>
      cases ht : lexWith v t with
      | error e =>
        rw [hs, ht] at hl
        cases hl
      | ok after =>
        rw [hs, ht] at hl
        obtain rfl := Except.ok.inj hl
        refine ⟨_, _, ⟨before, hs, rfl⟩, ⟨after, ht, rfl⟩, ?_⟩
        rw [List.map_append, List.map_map]
        rfl
  · rintro ⟨before, after, hs, ht, rfl⟩
    exact hs.append ht h

theorem unique (hu : Spells v s u) (hw : Spells v s w) : u = w := by
  obtain ⟨before, hb, rfl⟩ := hu
  obtain ⟨after, ha, rfl⟩ := hw
  rw [Except.ok.inj (hb.symm.trans ha)]

theorem append_cons (hs : Spells v s u) (hc : v.isLetter c = false) (ht : Spells v (c :: t) w) :
    Spells v (s ++ c :: t) (u ++ w) :=
  hs.append ht (.of_head hc)

theorem cons (hc : v.isLetter c = false) (hs : Spells v [c] u) (ht : Spells v t w) :
    Spells v (c :: t) (u ++ w) :=
  hs.append ht (.of_last hc)

theorem word {value : α} (hne : s ≠ []) (hs : ∀ c ∈ s, v.isLetter c)
    (hv : v.operand? s = some value) : Spells v s [.operand value] := by
  refine ⟨[⟨.operand value, 0⟩], ?_, rfl⟩
  obtain ⟨d, s, rfl⟩ := List.exists_cons_of_ne_nil hne
  have hd : v.isLetter d = true := hs d List.mem_cons_self
  simp [lexWith, Text.runs_of_forall hne hs, readRuns, readRun, readWord, hd, hv]

theorem symbol {l : Lexeme α} (hc : v.isLetter c = false)
    (h : readSymbol 0 c = .ok (some l)) (ht : Spells v t w) : Spells v (c :: t) (l :: w) := by
  refine cons (u := [l]) hc ⟨[⟨l, 0⟩], ?_, rfl⟩ ht
  simp [lexWith, Text.runs_singleton, readRuns, readRun, hc, h]

theorem operator (hv : v.Plain) (op : Operator) (ht : Spells v t w) :
    Spells v (op.symbol :: t) (.operator op :: w) := by
  refine symbol (hv.operator op) ?_ ht
  rw [readSymbol, Operator.ofSymbol?_symbol]

theorem bracket (hv : v.Plain) (side : Side) (ht : Spells v t w) :
    Spells v (side.symbol :: t) (.bracket side :: w) :=
  symbol (hv.bracket side) (by cases side <;> rfl) ht

theorem space (hv : v.Plain) (ht : Spells v t w) : Spells v (' ' :: t) w := by
  have hs : readSymbol (α := α) 0 ' ' = .ok none := rfl
  refine cons (u := []) hv.space ⟨[], ?_, rfl⟩ ht
  simp [lexWith, Text.runs_singleton, readRuns, readRun, hv.space, hs]

end Token.Spells

/-! ## Keywords -/

theorem keyword_ne_nil (value : Bool) : keyword value ≠ [] := by cases value <;> decide

theorem isLowerLetter_of_mem_keyword {value : Bool} {c : Char} (h : c ∈ keyword value) :
    isLowerLetter c := by
  have hall : (keyword value).all isLowerLetter = true := by cases value <;> rfl
  exact List.all_eq_true.mp hall c h

theorem truthValue?_keyword (value : Bool) : truthValue? (keyword value) = some value := by
  cases value <;> decide

theorem truthValue?_eq_none_iff {w : List Char} :
    truthValue? w = none ↔ ∀ value, w ≠ keyword value := by
  rw [Bool.forall_bool, truthValue?]
  split_ifs with htrue hfalse <;> simp_all

theorem Token.spells_keyword (value : Bool) :
    Spells .closed (keyword value) [.operand value] :=
  .word (keyword_ne_nil value) (fun _ => isLowerLetter_of_mem_keyword)
    (truthValue?_keyword value)

end Sentential
