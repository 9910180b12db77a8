import Sentential.Proofs.OpenExpression

/-!
# Replacing variables before or after reading

Lexing a closed text that came from an open one gives the tokens of the open text, with a truth
value for each atom and each position moved to where it lands. Reading and evaluating follow, so
that an assignment of all variables evaluates a text exactly if the text is an open expression, and
to the denotation of its formula.
-/
namespace Sentential

namespace Expression

/-! ## Tokens of the closed text -/

/-- Where an offset of the open text lands in the closed one. -/
def expandedOffset (ν : String → Bool) (s : List Char) (position : Nat) : Nat :=
  (expand ν (s.take position)).length

theorem runs_expand (ν : String → Bool) (s : List Char) :
    Text.runs isLowerLetter (expand ν s) = (Text.runs isAsciiLetter s).map (expand ν) :=
  Text.runs_flatMap (expandChar_ne_nil ν) (fun _ => isLowerLetter_of_mem_expandChar)
    (fun _ => expandChar_of_not_isAsciiLetter) s

theorem readRun_expand (ν : String → Bool) (move : Nat → Nat) {run : List Char}
    (hrun : Text.IsRun isAsciiLetter run) (position : Nat) :
    Token.readRun .closed (move position) (expand ν run) =
      ((Token.readRun .atoms position run).map (Option.map (Lexeme.map (Atom.value ν)))).mapError
        (.map (expand ν) move) := by
  cases hrun with
  | letters hne hw =>
    have hlower : ∀ d ∈ expand ν run, Vocabulary.closed.isLetter d := by
      intro d hd
      obtain ⟨c, hc, hd⟩ := List.mem_flatMap.mp hd
      exact isLowerLetter_of_mem_expandChar (hw c hc) d hd
    have hnonempty : expand ν run ≠ [] := by
      obtain ⟨c, rest, rfl⟩ := List.exists_cons_of_ne_nil hne
      simp [expand, expandChar_ne_nil]
    have ho : Vocabulary.closed.operand? (expand ν run) =
        (Vocabulary.atoms.operand? run).map (Atom.value ν) := truthValue?_expand ν hw
    rw [Token.readRun_letters hne hw, Token.readRun_letters hnonempty hlower, Token.readWord,
      Token.readWord, ho]
    cases Vocabulary.atoms.operand? run <;> rfl
  | @single c hc =>
    obtain ⟨he, hl⟩ := expandChar_of_not_isAsciiLetter (ν := ν) hc
    rw [show expand ν [c] = [c] by rw [expand, List.flatMap_singleton, he],
      Token.readRun_single hl, Token.readRun_single hc]
    exact Token.readSymbol_map (Atom.value ν) (expand ν) move position c

theorem lex_expand (ν : String → Bool) (s : List Char) :
    Token.lex (expand ν s) =
      ((Token.lexWith .atoms s).map
        (List.map (Token.map (Atom.value ν) (expandedOffset ν s)))).mapError
          (.map (expand ν) (expandedOffset ν s)) := by
  have hread : ∀ run ∈ Text.runs isAsciiLetter s, ∀ position,
      Token.readRun .closed (expandedOffset ν s position) (expand ν run) =
        ((Token.readRun .atoms position run).map
          (Option.map (Lexeme.map (Atom.value ν)))).mapError
            (.map (expand ν) (expandedOffset ν s)) :=
    fun run hr => readRun_expand ν _ (Text.isRun_of_mem_runs hr)
  have hmove : ∀ before run after, Text.runs isAsciiLetter s = before ++ run :: after →
      expandedOffset ν s (0 + before.flatten.length + run.length) =
        expandedOffset ν s (0 + before.flatten.length) + (expand ν run).length := by
    intro before run after hr
    have hs : s = before.flatten ++ (run ++ after.flatten) := by
      rw [← Text.flatten_runs isAsciiLetter s, hr, List.flatten_append, List.flatten_cons]
    have hfront : s.take before.flatten.length = before.flatten := by
      rw [hs, List.take_left]
    have hrun : s.take (before.flatten.length + run.length) = before.flatten ++ run := by
      rw [hs, ← List.append_assoc, ← List.length_append, List.take_left]
    simp only [expandedOffset, Nat.zero_add, hfront, hrun, expand, List.flatMap_append,
      List.length_append]
  have h := Token.readRuns_map 0 hread hmove
  rw [← runs_expand] at h
  exact h

/-! ## Formulas of the closed text -/

theorem phrase_expression_iff {s : List Char} {φ : Formula Atom} :
    Phrase .expression s φ ↔
      ∃ tokens, Token.lexWith .atoms s = .ok tokens ∧ Parser.parse tokens = .ok φ :=
  exists_spells_derives_iff

/-- A closed text reads as the open one does, with the values of atoms for atoms and every position
where it lands. -/
theorem parse_expand (ν : String → Bool) (s : List Char) :
    parse (expand ν s) =
      match Token.lexWith .atoms s with
      | .error e => .error (.lexical (e.map (expand ν) (expandedOffset ν s)))
      | .ok tokens =>
        match Parser.parse tokens with
        | .error failure =>
          .error (.grammatical (failure.error.map (Atom.value ν) (expandedOffset ν s)))
        | .ok φ => .ok (φ.map (Atom.value ν)) := by
  have hlex := lex_expand ν s
  cases hs : Token.lexWith .atoms s with
  | error e =>
    rw [hs] at hlex
    rw [parse, hlex]
    rfl
  | ok tokens =>
    have hclosed : Token.lex (expand ν s) =
        .ok (tokens.map (Token.map (Atom.value ν) (expandedOffset ν s))) := by
      rw [hlex, hs]
      rfl
    rw [parse, hclosed]
    simp only [Parser.parse_map]
    cases Parser.parse tokens <;> rfl

theorem parse_expand_eq_ok_iff {ν : String → Bool} {s : List Char} {f : Formula Bool} :
    parse (expand ν s) = .ok f ↔
      ∃ φ, Phrase .expression s φ ∧ φ.map (Atom.value ν) = f := by
  rw [parse_expand]
  simp only [phrase_expression_iff]
  cases Token.lexWith .atoms s with
  | error e => simp
  | ok tokens => cases hp : Parser.parse tokens <;> simp [hp]

/-! ## Assignments -/

theorem mem_alphabet {v : Char} : v ∈ alphabet ↔ isVariable v := by
  constructor
  · have hall : alphabet.all isVariable = true := by rfl
    exact List.all_eq_true.mp hall v
  · intro h
    have hcapital : ∀ n, n ≤ 'Z'.toNat → 'A'.toNat ≤ n → isVariable (Char.ofNat n) →
        Char.ofNat n ∈ alphabet := by decide
    have hle : 'A' ≤ v ∧ v ≤ 'Z' := by
      simpa only [isCapital, Bool.and_eq_true, decide_eq_true_eq] using (isVariable_iff.mp h).1
    rw [← Char.ofNat_toNat v] at h ⊢
    exact hcapital v.toNat hle.2 hle.1 h

theorem mem_freeVariables {s : List Char} {v : Char} :
    v ∈ freeVariables s ↔ v ∈ s ∧ isVariable v := by
  rw [freeVariables, List.mem_filter, mem_alphabet, decide_eq_true_eq, and_comm]

end Expression

namespace Assignment

/-- Every free variable of the text has a value. -/
def Covers (σ : Assignment) (s : List Char) : Prop :=
  ∀ v ∈ Expression.freeVariables s, (σ.lookup v.toString).isSome

instance (σ : Assignment) (s : List Char) : Decidable (σ.Covers s) :=
  decidable_of_iff ((Expression.freeVariables s).all fun v => (σ.lookup v.toString).isSome)
    List.all_eq_true

def Agrees (σ : Assignment) (ν : String → Bool) (s : List Char) : Prop :=
  ∀ v ∈ Expression.freeVariables s, σ.lookup v.toString = some (ν v.toString)

/-- The values of an assignment, with false for names that have none. -/
def valuation (σ : Assignment) (name : String) : Bool := (σ.lookup name).getD false

theorem lookup_eq_valuation {σ : Assignment} {name : String} (h : (σ.lookup name).isSome) :
    σ.lookup name = some (σ.valuation name) := by
  obtain ⟨value, hvalue⟩ := Option.isSome_iff_exists.mp h
  rw [valuation, hvalue, Option.getD_some]

theorem Covers.agrees {σ : Assignment} {s : List Char} (h : σ.Covers s) :
    σ.Agrees σ.valuation s :=
  fun v hv => lookup_eq_valuation (h v hv)

end Assignment

namespace Expression

variable {σ : Assignment} {ν : String → Bool} {s : List Char}

theorem substituteChar_eq {c : Char}
    (h : isVariable c → σ.lookup c.toString = some (ν c.toString)) :
    substituteChar σ c = .ok (expandChar ν c) := by
  unfold substituteChar expandChar
  cases constant? c with
  | some value => rfl
  | none =>
    by_cases hc : isVariable c = true
    · simp only [hc, ↓reduceIte, h hc]
    · simp only [hc, Bool.false_eq_true, ↓reduceIte]

theorem substitute_eq (h : σ.Agrees ν s) : substitute σ s = .ok (expand ν s) := by
  have hs : ∀ v ∈ s, isVariable v → σ.lookup v.toString = some (ν v.toString) :=
    fun v hv hvar => h v (mem_freeVariables.mpr ⟨hv, hvar⟩)
  clear h
  induction s with
  | nil => rfl
  | cons c s ih =>
    simp only [List.forall_mem_cons] at hs
    rw [substitute, substituteChar_eq hs.1]
    simp only [ih hs.2]
    rfl

/-- The text is a phrase that has the truth value once its variables have theirs. -/
def Denotes (ν : String → Bool) (c : Category) (s : List Char) (value : Bool) : Prop :=
  ∃ φ, Phrase c s φ ∧ (φ.map (Atom.value ν)).eval = value

theorem evaluateUnder_eq (h : σ.Agrees ν s) :
    evaluateUnder σ s = (evaluate (expand ν s)).mapError .malformed := by
  simp only [evaluateUnder, substitute_eq h]

theorem evaluateUnder_eq_ok_iff (h : σ.Agrees ν s) {value : Bool} :
    evaluateUnder σ s = .ok value ↔ Denotes ν .expression s value := by
  have hok : evaluateUnder σ s = .ok value ↔ evaluate (expand ν s) = .ok value := by
    rw [evaluateUnder_eq h]
    cases evaluate (expand ν s) with
    | error e => constructor <;> (intro he; cases he)
    | ok v => constructor <;> (intro he; cases he; rfl)
  rw [hok, evaluate_eq_ok_iff]
  simp only [parse_expand_eq_ok_iff]
  constructor
  · rintro ⟨_, ⟨φ, hφ, rfl⟩, hv⟩
    exact ⟨φ, hφ, hv⟩
  · rintro ⟨φ, hφ, hv⟩
    exact ⟨_, ⟨φ, hφ, rfl⟩, hv⟩

/-! ## Atoms of an open expression -/

theorem eq_of_ofWord?_eq_named {w : List Char} {v : Char} (h : Atom.ofWord? w = some (.named v)) :
    w = [v] ∧ isVariable v := by
  by_cases hw : ∃ c, w = [c] ∧ isCapital c = true
  · obtain ⟨c, rfl, hc⟩ := hw
    rw [ofWord?_singleton] at h
    cases hn : constant? c with
    | some value =>
      rw [hn] at h
      cases h
    | none =>
      have hvar : isVariable c = true := isVariable_iff.mpr ⟨hc, hn⟩
      simp only [hn, hvar, ↓reduceIte, Option.some.injEq, Atom.named.injEq] at h
      exact ⟨by rw [h], h ▸ hvar⟩
  · have hsmall : ∀ c, w = [c] → isCapital c = false := fun c hc =>
      Bool.eq_false_iff.mpr fun hcapital => hw ⟨c, hc, hcapital⟩
    rw [ofWord?_eq hsmall] at h
    simp at h

theorem mem_freeVariables_of_phrase {c : Category} {φ : Formula Atom} {v : Char}
    (h : Phrase c s φ) (hv : .named v ∈ φ.operands) : v ∈ freeVariables s := by
  obtain ⟨w, ⟨tokens, hl, rfl⟩, hd⟩ := h
  rw [← hd.operands_eq, List.mem_filterMap] at hv
  obtain ⟨l, hmem, hatom⟩ := hv
  obtain ⟨token, ht, rfl⟩ := List.mem_map.mp hmem
  obtain ⟨run, hrun, ho⟩ := Token.exists_run_of_mem hl ht hatom
  obtain ⟨rfl, hvar⟩ := eq_of_ofWord?_eq_named ho
  refine mem_freeVariables.mpr ⟨?_, hvar⟩
  rw [← Text.flatten_runs isAsciiLetter s]
  exact List.mem_flatten_of_mem hrun List.mem_cons_self

/-- An assignment of all free variables evaluates a text exactly if the text is an open expression,
and then to the denotation of its formula. -/
theorem evaluateUnder_iff_phrase (σ : Assignment) (s : List Char) (h : σ.Covers s) :
    ((∃ value, evaluateUnder σ s = .ok value) ↔ ∃ φ, Phrase .expression s φ) ∧
      ∀ φ value, Phrase .expression s φ → evaluateUnder σ s = .ok value →
        φ.denotation? σ = some value := by
  have hν := h.agrees
  refine ⟨⟨?_, ?_⟩, ?_⟩
  · rintro ⟨value, he⟩
    obtain ⟨φ, hφ, -⟩ := (evaluateUnder_eq_ok_iff hν).mp he
    exact ⟨φ, hφ⟩
  · rintro ⟨φ, hφ⟩
    exact ⟨_, (evaluateUnder_eq_ok_iff hν).mpr ⟨φ, hφ, rfl⟩⟩
  · intro φ value hφ he
    have hvalue : evaluateUnder σ s = .ok (φ.map (Atom.value σ.valuation)).eval :=
      (evaluateUnder_eq_ok_iff hν).mpr ⟨φ, hφ, rfl⟩
    rw [← Except.ok.inj (hvalue.symm.trans he)]
    refine Formula.denotation?_eq fun a ha => ?_
    cases a with
    | constant value => rfl
    | named v => exact hν v (mem_freeVariables_of_phrase hφ ha)

theorem phrase_of_evaluateUnder_mixed :
    let σ : Assignment := [("A", true), ("B", false), ("T", false), ("F", true)]
    σ.Covers "¬(A∧F)∧(B∨T)".toList ∧
      ∃ φ, Phrase .expression "¬(A∧F)∧(B∨T)".toList φ ∧ φ.denotation? σ = some true := by
  intro σ
  have hc : σ.Covers "¬(A∧F)∧(B∨T)".toList := by decide
  have he : evaluateUnder σ "¬(A∧F)∧(B∨T)".toList = .ok true := by rfl
  obtain ⟨⟨hsucceeds, -⟩, hdenotes⟩ := evaluateUnder_iff_phrase σ _ hc
  obtain ⟨φ, hφ⟩ := hsucceeds ⟨true, he⟩
  exact ⟨hc, φ, hφ, hdenotes φ true hφ he⟩

end Expression

end Sentential
