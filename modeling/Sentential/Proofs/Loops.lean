import Sentential.Formula.Loops
import Sentential.Proofs.Viability

/-!
# The two loops read as the reader does

At the beginning of a pass the frames hold the open levels of the reader, one by one, and the reader
has come over the tokens that are taken. From this the order of passes follows: operands and
operators stand in a frame together or not at all, the frames above the bottom one belong to the
brackets without a partner, and nothing is missing when a node is made. A pass that goes on takes a
token, which bounds the passes of each loop by the tokens that are left.
-/
namespace Sentential.Parser

variable {α : Type}

theorem Passes.run_append {s t : State α} {tokens : List (Token α)} (h : Passes s tokens t)
    (rest : List (Token α)) : run s (tokens ++ rest) = run t rest := by
  induction h with
  | refl => rfl
  | move hm _ ih => rw [List.cons_append, run, step_eq_ok_iff.mpr hm, ← ih]

theorem State.Refuses.run {s : State α} {e : GrammarError α} {rest : List (Token α)}
    (h : s.Refuses e rest.head?) : Parser.run s rest = .error ⟨e, rest⟩ := by
  cases rest with
  | nil =>
    have hf : s.finish = .error e := h
    rw [Parser.run, hf]
  | cons token rest =>
    have hs : s.step token = .error e := h
    rw [Parser.run, hs]

theorem unmatched_append (before after : List (Token α)) :
    unmatched (before ++ after) = after.foldl track (unmatched before) := List.foldl_append

namespace Loops

/-! ## Frames and levels -/

def frameOf (opening : Option (Token α)) (level : Level α) : Frame α where
  opening
  negations := level.negations
  expression := Option.map Prod.fst level.expression
  expressionOp := Option.map Prod.snd level.expression
  term := Option.map Prod.fst level.term
  termOp := Option.map Prod.snd level.term

/-- The frames hold the levels, and those above the bottom belong to the brackets in order. -/
inductive Holds : List (Frame α) → List (Token α) → List (Group α) → Level α → Prop where
  | bottom {level : Level α} : Holds [frameOf none level] [] [] level
  | bracket {frames : List (Frame α)} {waiting : List (Token α)} {groups : List (Group α)}
      {outer level : Level α} {opening : Token α} : Holds frames waiting groups outer →
      Holds (frameOf (some opening) level :: frames) (opening :: waiting)
        (⟨opening.position, outer⟩ :: groups) level

namespace Holds

variable {frames : List (Frame α)} {waiting : List (Token α)} {groups : List (Group α)}
  {level : Level α}

theorem exists_frame (h : Holds frames waiting groups level) :
    ∃ opening below, frames = frameOf opening level :: below ∧
      ∀ other, Holds (frameOf opening other :: below) waiting groups other := by
  cases h with
  | bottom => exact ⟨none, [], rfl, fun _ => .bottom⟩
  | bracket h => exact ⟨_, _, rfl, fun _ => .bracket h⟩

theorem openings (h : Holds frames waiting groups level) :
    frames.map Frame.opening = waiting.map some ++ [none] := by
  induction h with
  | bottom => rfl
  | bracket _ ih => rw [List.map_cons, ih, List.map_cons, List.cons_append, frameOf]

theorem forall_frameOf (h : Holds frames waiting groups level) :
    ∀ frame ∈ frames, ∃ opening level, frame = frameOf opening level := by
  induction h with
  | bottom => exact List.forall_mem_cons.mpr ⟨⟨_, _, rfl⟩, nofun⟩
  | bracket _ ih => exact List.forall_mem_cons.mpr ⟨⟨_, _, rfl⟩, ih⟩

theorem start : Holds (α := α) [{}] [] [] {} := by
  have hbottom : Holds (α := α) [frameOf none {}] [] [] {} := .bottom
  exact hbottom

theorem push (h : Holds frames waiting groups level) (opening : Token α) :
    Holds ({ opening := some opening } :: frames) (opening :: waiting)
      (⟨opening.position, level⟩ :: groups) {} := by
  have hnew : Holds (frameOf (some opening) {} :: frames) (opening :: waiting)
      (⟨opening.position, level⟩ :: groups) {} := .bracket h
  exact hnew

end Holds

/-! ## Nodes -/

theorem join?_pending (pending : Pending α) (f : Formula α) :
    join? (Option.map Prod.snd pending) (Option.map Prod.fst pending) (some f) =
      .ok (some (pending.join f)) := by
  cases pending <;> rfl

theorem negate?_some (n : Nat) (f : Formula α) : negate? n (some f) = .ok (some (f.negate n)) := by
  cases n <;> rfl

theorem addFactor_frameOf (opening : Option (Token α)) (level : Level α) (factor : Formula α) :
    (frameOf opening level).addFactor (some factor) =
      .ok { frameOf opening { expression := level.expression } with
        term := some (level.addFactor factor) } := by
  simp only [Frame.addFactor, frameOf, negate?_some, join?_pending]
  rfl

theorem endTerm_frameOf (opening : Option (Token α)) (level : Level α) (term : Formula α) :
    Frame.endTerm { frameOf opening { expression := level.expression } with term := some term } =
      .ok { opening, expression := some (level.addTerm term) } := by
  simp only [Frame.endTerm, frameOf, join?_pending]
  rfl

/-! ## Passes -/

def EndsFactor (token : Token α) : Prop :=
  (∃ value, token.lexeme = .operand value) ∨ token.lexeme = .bracket .right

/-- The tokens bring the reader to where the loops are. -/
inductive At : List (Token α) → Point α → Prop where
  | outer {taken rest : List (Token α)} {frames : List (Frame α)} {groups : List (Group α)}
      {level : Level α} : Passes {} taken ⟨groups, level, .operand⟩ →
      Holds frames (unmatched taken) groups level → At taken ⟨.outer, frames, rest⟩
  | inner {before rest : List (Token α)} {frames : List (Frame α)} {groups : List (Group α)}
      {level : Level α} {token : Token α} {factor : Formula α} : EndsFactor token →
      Passes {} (before ++ [token]) (State.complete groups level factor) →
      Holds frames (unmatched (before ++ [token])) groups level →
      At (before ++ [token]) ⟨.inner (some factor), frames, rest⟩

/-- What comes of a pass, told by the reader. -/
inductive Comes (taken : List (Token α)) (p : Point α) : Pass α → Prop where
  | goesOn {q : Point α} {more : List (Token α)} : p.rest = more ++ q.rest →
      At (taken ++ more) q → Comes taken p (.goesOn q)
  | returns {s : State α} {f : Formula α} : Passes {} (taken ++ p.rest) s → s.finish = .ok f →
      Comes taken p (.ends (.returns (some f)))
  | raises {s : State α} {e : GrammarError α} {more rest : List (Token α)} :
      p.rest = more ++ rest → Passes {} (taken ++ more) s → s.Refuses e rest.head? →
      Comes taken p (.ends (.raises e rest))

theorem isNegation_iff {token : Token α} :
    isNegation token ↔ token.lexeme = .operator .negation := by
  unfold isNegation
  split <;> simp_all

theorem passes_negations {groups : List (Group α)} {level : Level α} {tokens : List (Token α)}
    (h : ∀ token ∈ tokens, isNegation token) :
    Passes ⟨groups, level, .operand⟩ tokens
      ⟨groups, { level with negations := level.negations + tokens.length }, .operand⟩ := by
  induction tokens generalizing level with
  | nil => exact .refl
  | cons token tokens ih =>
    obtain ⟨hn, ht⟩ := List.forall_mem_cons.mp h
    obtain ⟨lexeme, position⟩ := token
    obtain rfl : lexeme = .operator .negation := isNegation_iff.mp hn
    have hrest : Passes ⟨groups, level.negate, .operand⟩ tokens _ := ih ht
    rw [List.length_cons, Nat.add_comm tokens.length, ← Nat.add_assoc]
    exact .move .negation hrest

theorem unmatched_negations {before tokens : List (Token α)}
    (h : ∀ token ∈ tokens, isNegation token) :
    unmatched (before ++ tokens) = unmatched before := by
  rw [unmatched_append]
  generalize unmatched before = waiting
  induction tokens with
  | nil => rfl
  | cons token tokens ih =>
    obtain ⟨hn, ht⟩ := List.forall_mem_cons.mp h
    have hsame : track waiting token = waiting := by rw [track, isNegation_iff.mp hn]
    rw [List.foldl_cons, hsame, ih ht]

variable {taken rest : List (Token α)} {frames : List (Frame α)} {groups : List (Group α)}
  {level : Level α}

theorem outerPass_ne_returns (node : Option (Formula α)) :
    outerPass frames rest ≠ .ends (.returns node) := by
  intro h
  unfold outerPass at h
  split at h
  · cases h
  · dsimp only at h
    split at h
    · cases h
    · split at h <;> cases h

theorem comes_outer (hp : Passes {} taken ⟨groups, level, .operand⟩)
    (hf : Holds frames (unmatched taken) groups level) :
    Comes taken ⟨.outer, frames, rest⟩ (outerPass frames rest) := by
  obtain ⟨opening, below, rfl, hother⟩ := hf.exists_frame
  have hsplit : rest.takeWhile isNegation ++ rest.dropWhile isNegation = rest :=
    List.takeWhile_append_dropWhile
  have hnegations : ∀ token ∈ rest.takeWhile isNegation, isNegation token :=
    fun _ => List.mem_takeWhile_imp
  have hstop := List.head?_dropWhile_not isNegation rest
  unfold outerPass
  dsimp only
  generalize rest.takeWhile isNegation = negations at hsplit hnegations
  generalize rest.dropWhile isNegation = more at hsplit hstop
  have hpasses := hp.trans (passes_negations hnegations)
  have hholds := hother { level with negations := level.negations + negations.length }
  rw [← unmatched_negations hnegations] at hholds
  cases more with
  | nil => exact .raises hsplit.symm hpasses rfl
  | cons token more =>
    have hmore : rest = (negations ++ [token]) ++ more := by rw [← hsplit, List.append_cons]
    obtain ⟨lexeme, position⟩ := token
    rcases lexeme with value | (_ | op) | (_ | _)
    · refine .goesOn hmore ?_
      rw [← List.append_assoc]
      refine .inner (.inl ⟨value, rfl⟩) (hpasses.trans (.single .operand)) ?_
      rw [unmatched_append]
      exact hholds
    · -- All negations in front are taken.
      cases hstop
    · exact .raises hsplit.symm hpasses rfl
    · refine .goesOn hmore ?_
      rw [← List.append_assoc]
      refine .outer (hpasses.trans (.single .opening)) ?_
      rw [unmatched_append]
      exact hholds.push _
    · exact .raises hsplit.symm hpasses rfl

/-- Behind a whole factor the frame holds the term that it ends, and an operator takes it on. -/
theorem innerPass_operator {factor : Formula α} {opening : Option (Token α)} {op : BinaryOp}
    {position : Nat} (below : List (Frame α)) :
    innerPass (some factor) (frameOf opening level :: below)
        (⟨.operator (.binary op), position⟩ :: rest) =
      .goesOn ⟨.outer, frameOf opening (Level.addOperator { expression := level.expression }
        (level.addFactor factor) op) :: below, rest⟩ := by
  simp only [innerPass, addFactor_frameOf, matchOperator]
  cases ho : op.tier with
  | junction =>
    simp only [↓reduceIte, Level.addOperator, ho]
    rfl
  | implication =>
    simp only [reduceCtorEq, ↓reduceIte, endTerm_frameOf, Level.addOperator, ho]
    rfl

theorem innerPass_other {factor : Formula α} {opening : Option (Token α)} (below : List (Frame α))
    (h : ∀ token ∈ rest.head?, ∀ op, token.lexeme ≠ .operator (.binary op)) :
    innerPass (some factor) (frameOf opening level :: below) rest =
      endLevel { opening, expression := some (level.addTerm (level.addFactor factor)) } below
        rest := by
  have hnone (tier : Tier) : matchOperator tier rest = none := by
    unfold matchOperator
    split
    · next op _ _ => exact absurd rfl (h _ rfl op)
    · rfl
  simp only [innerPass, addFactor_frameOf, hnone, endTerm_frameOf]

theorem endLevel_unexpected {frame : Frame α} {token : Token α} (below : List (Frame α))
    (h : token.lexeme ≠ .bracket .right) :
    endLevel frame below (token :: rest) = .ends (.raises (.unexpected token) (token :: rest)) := by
  unfold endLevel
  cases frame.opening with
  | none => rfl
  | some opening =>
    dsimp only
    split
    · next hl => exact absurd hl h
    · rfl

/-- A token that is no binary operator and no closing bracket does not follow a factor. -/
theorem comes_inner_unexpected {factor : Formula α} {token : Token α}
    (hp : Passes {} taken (State.complete groups level factor))
    (hf : Holds frames (unmatched taken) groups level)
    (hop : ∀ op, token.lexeme ≠ .operator (.binary op))
    (hbracket : token.lexeme ≠ .bracket .right) :
    Comes taken ⟨.inner (some factor), frames, token :: rest⟩
      (innerPass (some factor) frames (token :: rest)) := by
  obtain ⟨opening, below, rfl, -⟩ := hf.exists_frame
  have hstep : (State.complete groups level factor).step token = .error (.unexpected token) := by
    obtain ⟨lexeme, position⟩ := token
    rcases lexeme with value | (_ | op) | (_ | _)
    · rfl
    · rfl
    · exact absurd rfl (hop op)
    · rfl
    · exact absurd rfl hbracket
  have hother : ∀ t ∈ (token :: rest).head?, ∀ op, t.lexeme ≠ .operator (.binary op) := by
    intro t ht
    obtain rfl := Option.some.inj ht
    exact hop
  rw [innerPass_other below hother, endLevel_unexpected below hbracket]
  rw [← List.append_nil taken] at hp
  exact .raises rfl hp hstep

theorem comes_inner {factor : Formula α} (hp : Passes {} taken (State.complete groups level factor))
    (hf : Holds frames (unmatched taken) groups level) :
    Comes taken ⟨.inner (some factor), frames, rest⟩ (innerPass (some factor) frames rest) := by
  have hstay : Passes {} (taken ++ []) (State.complete groups level factor) := by
    rwa [List.append_nil]
  cases rest with
  | nil =>
    generalize unmatched taken = waiting at hf
    cases hf with
    | bottom =>
      rw [innerPass_other [] (by simp)]
      exact .returns hstay rfl
    | @bracket below =>
      rw [innerPass_other below (by simp)]
      exact .raises rfl hstay rfl
  | cons token rest =>
    have hmore : token :: rest = [token] ++ rest := rfl
    obtain ⟨lexeme, position⟩ := token
    rcases lexeme with value | (_ | op) | (_ | _)
    · exact comes_inner_unexpected hp hf (by simp) (by simp)
    · exact comes_inner_unexpected hp hf (by simp) (by simp)
    · obtain ⟨opening, below, rfl, hother⟩ := hf.exists_frame
      rw [innerPass_operator]
      refine .goesOn hmore (.outer (hp.trans (.single .operator)) ?_)
      rw [unmatched_append]
      exact hother _
    · exact comes_inner_unexpected hp hf (by simp) (by simp)
    · generalize hw : unmatched taken = waiting at hf
      cases hf with
      | bottom =>
        rw [innerPass_other [] (by simp)]
        exact .raises rfl hstay rfl
      | @bracket below _ _ _ _ _ hf =>
        rw [innerPass_other below (by simp)]
        refine .goesOn hmore (.inner (.inr rfl) (hp.trans (.single .closing)) ?_)
        rw [unmatched_append, hw]
        exact hf

/-- One pass keeps the loops where the reader is, or it ends as the reader does. -/
theorem At.comes {p : Point α} (h : At taken p) : Comes taken p p.pass := by
  cases h with
  | outer hp hf => exact comes_outer hp hf
  | inner _ hp hf => exact comes_inner hp hf

/-! ## Runs -/

theorem At.start (tokens : List (Token α)) : At [] (Point.start tokens) := .outer .refl .start

/-- How the loops end where the reader has this outcome. -/
def Ending.ofOutcome : Except (Failure α) (Formula α) → Ending α
  | .ok f => .returns (some f)
  | .error failure => .raises failure.error failure.rest

theorem Comes.ofOutcome {p : Point α} {ending : Ending α} (h : Comes taken p (.ends ending)) :
    ending = .ofOutcome (parse (taken ++ p.rest)) := by
  cases h with
  | returns hp hf => rw [parse, run_eq_ok_iff.mpr ⟨_, hp, hf⟩, Ending.ofOutcome]
  | raises hr hp he =>
    rw [parse, hr, ← List.append_assoc, hp.run_append, he.run, Ending.ofOutcome]

/-- From wherever the loops are with the reader, they come to its outcome. -/
theorem run_eq {p : Point α} (h : At taken p) : run p = .ofOutcome (parse (taken ++ p.rest)) := by
  fun_induction run p generalizing taken with
  | case1 p q hq ih =>
    have hcomes := h.comes
    rw [hq] at hcomes
    cases hcomes with
    | goesOn hr hat => rw [ih hat, hr, List.append_assoc]
  | case2 p ending he =>
    have hcomes := h.comes
    rw [he] at hcomes
    exact hcomes.ofOutcome

namespace Loop

/-- A pass of the outer loop counts once and a pass of the inner loop does not. -/
def outerPasses : Loop α → Nat
  | outer => 1
  | inner _ => 0

def innerPasses : Loop α → Nat
  | outer => 0
  | inner _ => 1

end Loop

/-- From the one point to the other, by so many passes of the outer and of the inner loop. -/
inductive Trail : Point α → Nat → Nat → Point α → Prop where
  | refl {p : Point α} : Trail p 0 0 p
  | pass {p q r : Point α} {m n : Nat} : p.pass = .goesOn q → Trail q m n r →
      Trail p (p.loop.outerPasses + m) (p.loop.innerPasses + n) r

namespace Trail

variable {p q : Point α} {m n : Nat}

theorem exists_at (h : Trail p m n q) (hp : At taken p) :
    ∃ more, p.rest = more ++ q.rest ∧ At (taken ++ more) q := by
  induction h generalizing taken with
  | refl => exact ⟨[], rfl, by rwa [List.append_nil]⟩
  | pass hq _ ih =>
    have hcomes := hp.comes
    rw [hq] at hcomes
    cases hcomes with
    | goesOn hr hat =>
      obtain ⟨more, hmore, hat'⟩ := ih hat
      rw [hmore, ← List.append_assoc] at hr
      rw [List.append_assoc] at hat'
      exact ⟨_, hr, hat'⟩

/-- The pass that begins at the end of the trail counts as well. -/
theorem passes_le (h : Trail p m n q) :
    m + q.loop.outerPasses ≤ p.rest.length + p.loop.outerPasses ∧
      n + q.loop.innerPasses ≤ p.rest.length + p.loop.innerPasses := by
  have hone (l : Loop α) : l.outerPasses + l.innerPasses = 1 := by cases l <;> rfl
  induction h with
  | refl => omega
  | @pass p q r m n hq _ ih =>
    -- The token that the pass takes pays for the next pass, in whichever loop that is.
    have hrest := Point.rest_lt_of_pass hq
    have hloop := hone q.loop
    omega

theorem exists_run (p : Point α) : ∃ m n q, Trail p m n q ∧ q.pass = .ends (run p) := by
  fun_induction run p with
  | case1 p next hnext ih =>
    obtain ⟨m, n, q, h, hq⟩ := ih
    exact ⟨_, _, q, .pass hnext h, hq⟩
  | case2 p ending he => exact ⟨0, 0, p, .refl, he⟩

end Trail

/-- What holds where a pass begins, after these tokens. -/
structure Sound (taken : List (Token α)) (p : Point α) : Prop where
  frames_ne_nil : p.frames ≠ []
  openings : p.frames.map Frame.opening = (unmatched taken).map some ++ [none]
  term : ∀ frame ∈ p.frames, frame.term.isSome ↔ frame.termOp.isSome
  expression : ∀ frame ∈ p.frames, frame.expression.isSome ↔ frame.expressionOp.isSome
  begins : p.loop = .outer → (∃ q negations token, p.pass = .goesOn q ∧
    p.rest = negations ++ token :: q.rest ∧ (∀ t ∈ negations, isNegation t) ∧
      BeginsFactor token) ∨ ∃ e rest, p.pass = .ends (.raises e rest)
  ends : ∀ node, p.loop = .inner node →
    node.isSome ∧ ∃ before token, taken = before ++ [token] ∧ EndsFactor token
  no_crash : ∀ crash, p.pass ≠ .ends (.crashes crash)
  returns : ∀ node, p.pass = .ends (.returns node) → node.isSome

theorem At.exists_holds {p : Point α} (h : At taken p) :
    ∃ groups level, Holds p.frames (unmatched taken) groups level := by
  cases h with
  | outer _ hf => exact ⟨_, _, hf⟩
  | inner _ _ hf => exact ⟨_, _, hf⟩

theorem At.sound {p : Point α} (h : At taken p) : Sound taken p := by
  obtain ⟨groups, level, hf⟩ := h.exists_holds
  have hcomes := h.comes
  refine ⟨?_, hf.openings, ?_, ?_, ?_, ?_, ?_, ?_⟩
  · obtain ⟨opening, below, he, -⟩ := hf.exists_frame
    rw [he]
    exact List.cons_ne_nil _ _
  · intro frame hframe
    obtain ⟨opening, level, rfl⟩ := hf.forall_frameOf frame hframe
    simp only [frameOf, Option.isSome_map]
  · intro frame hframe
    obtain ⟨opening, level, rfl⟩ := hf.forall_frameOf frame hframe
    simp only [frameOf, Option.isSome_map]
  · intro hloop
    rw [Point.pass, hloop] at hcomes ⊢
    generalize hpass : outerPass p.frames p.rest = pass at hcomes
    cases hcomes with
    | goesOn _ _ =>
      obtain ⟨negations, token, htaken⟩ := exists_token_of_outerPass hpass
      exact .inl ⟨_, negations, token, rfl, htaken⟩
    | returns _ _ => exact absurd hpass (outerPass_ne_returns _)
    | raises _ _ _ => exact .inr ⟨_, _, rfl⟩
  · rintro node hloop
    cases h with
    | outer _ _ => cases hloop
    | inner htoken _ _ =>
      cases hloop
      exact ⟨rfl, _, _, rfl, htoken⟩
  · intro crash hc
    rw [hc] at hcomes
    cases hcomes
  · intro node hn
    rw [hn] at hcomes
    cases hcomes
    rfl

/-- Wherever a pass of either loop begins, there is a frame, the bottom frame alone has no opening
bracket, the openings of the others are the brackets without a partner in order, and each frame has
an expression or a term exactly if it has the operator behind it. So no pass crashes, and what is
returned is a formula. From any point on, the passes of the outer loop are at most as many as the
tokens that are left, and one more if it begins there, and those of the inner loop likewise. So the
loops come to their end, which is the outcome of the reader. -/
theorem loops_sound (tokens : List (Token α)) :
    (∀ m n p, Trail (.start tokens) m n p → ∃ taken, tokens = taken ++ p.rest ∧ Sound taken p) ∧
    (∀ (p : Point α) m n q, Trail p m n q →
      m + q.loop.outerPasses ≤ p.rest.length + p.loop.outerPasses ∧
        n + q.loop.innerPasses ≤ p.rest.length + p.loop.innerPasses) ∧
    (∃ m n p, Trail (.start tokens) m n p ∧ p.pass = .ends (run (.start tokens)) ∧
      m + p.loop.outerPasses ≤ tokens.length + 1 ∧ n + p.loop.innerPasses ≤ tokens.length) ∧
    run (.start tokens) = .ofOutcome (parse tokens) := by
  refine ⟨fun m n p h => ?_, fun p m n q h => h.passes_le, ?_, run_eq (At.start tokens)⟩
  · obtain ⟨more, hr, hat⟩ := h.exists_at (At.start tokens)
    exact ⟨more, hr, hat.sound⟩
  · obtain ⟨m, n, p, h, he⟩ := Trail.exists_run (Point.start tokens)
    exact ⟨m, n, p, h, he, h.passes_le⟩

/-- The loops after the first two brackets of the open groups. -/
def insideGroups : Point Bool where
  loop := .outer
  frames :=
    [{ opening := some ⟨.bracket .left, 1⟩ }, { opening := some ⟨.bracket .left, 0⟩ }, {}]
  rest := TokenStream.openGroups.drop 2

theorem loops_sound_openGroups :
    run (.start TokenStream.openGroups) = .raises (.unclosed 8) [] ∧
      ∃ taken, TokenStream.openGroups = taken ++ insideGroups.rest ∧ Sound taken insideGroups := by
  obtain ⟨hsound, -, -, hrun⟩ := loops_sound TokenStream.openGroups
  have hfirst : (Point.start TokenStream.openGroups).pass = .goesOn
      ⟨.outer, [{ opening := some ⟨.bracket .left, 0⟩ }, {}], TokenStream.openGroups.drop 1⟩ := rfl
  have hsecond : outerPass [{ opening := some ⟨.bracket .left, 0⟩ }, {}]
      (TokenStream.openGroups.drop 1) = .goesOn insideGroups := rfl
  have htrail : Trail (.start TokenStream.openGroups) 2 0 insideGroups :=
    .pass hfirst (.pass hsecond .refl)
  exact ⟨hrun, hsound 2 0 insideGroups htrail⟩

end Loops

end Sentential.Parser
