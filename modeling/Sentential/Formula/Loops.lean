import Sentential.Formula.Parser

/-!
# Reading in two loops

The reading of a formula as two loops, one inside the other, over a stack of frames, the innermost
level first. In the outer loop an operand is due: a pass takes negations and then an operand or an
opening bracket. In the inner one an operator is due: a pass puts the factor just read into its
frame, and takes an operator, which leads back to the outer loop, or a closing bracket, which makes
the finished level a factor of the frame below. A frame keeps operands and operators apart, so that
nothing but the order of the passes sees to it that they go together. What would go wrong then has a
name here: there may be no frame, or a node may lack a child.
-/
namespace Sentential.Parser.Loops

variable {α : Type}

inductive Crash where
  | noFrame
  | noChild
  deriving DecidableEq, Repr

/-- What a bracket level holds: the expression and the term in progress with their last operators,
and the negations in front of the next factor. The bottom level has no opening bracket. -/
structure Frame (α : Type) where
  opening : Option (Token α) := none
  negations : Nat := 0
  expression : Option (Formula α) := none
  expressionOp : Option BinaryOp := none
  term : Option (Formula α) := none
  termOp : Option BinaryOp := none

def negate? : Nat → Option (Formula α) → Except Crash (Option (Formula α))
  | 0, node => .ok node
  | _ + 1, none => .error .noChild
  | n + 1, some f => .ok (some (f.negate (n + 1)))

/-- The right operand alone if there is no operator. -/
def join? : Option BinaryOp → Option (Formula α) → Option (Formula α) →
    Except Crash (Option (Formula α))
  | none, _, rhs => .ok rhs
  | some op, some lhs, some rhs => .ok (some (.binary op lhs rhs))
  | some _, _, _ => .error .noChild

namespace Frame

def addFactor (frame : Frame α) (node : Option (Formula α)) : Except Crash (Frame α) :=
  match negate? frame.negations node with
  | .error crash => .error crash
  | .ok factor =>
    match join? frame.termOp frame.term factor with
    | .error crash => .error crash
    | .ok term => .ok { frame with negations := 0, term, termOp := none }

def endTerm (frame : Frame α) : Except Crash (Frame α) :=
  match join? frame.expressionOp frame.expression frame.term with
  | .error crash => .error crash
  | .ok expression => .ok { frame with expression, expressionOp := none, term := none }

end Frame

inductive Loop (α : Type) where
  | outer
  | inner (node : Option (Formula α))

/-- Where a pass of a loop begins. -/
structure Point (α : Type) where
  loop : Loop α
  frames : List (Frame α)
  rest : List (Token α)

inductive Ending (α : Type) where
  | returns (node : Option (Formula α))
  | raises (error : GrammarError α) (rest : List (Token α))
  | crashes (crash : Crash)

/-- What comes of one pass. -/
inductive Pass (α : Type) where
  | goesOn (next : Point α)
  | ends (ending : Ending α)

def isNegation (token : Token α) : Bool :=
  match token.lexeme with
  | .operator .negation => true
  | _ => false

/-- Takes an operator of a tier. -/
def matchOperator (tier : Tier) : List (Token α) → Option (BinaryOp × List (Token α))
  | ⟨.operator (.binary op), _⟩ :: rest => if op.tier = tier then some (op, rest) else none
  | _ => none

def outerPass (frames : List (Frame α)) (tokens : List (Token α)) : Pass α :=
  match frames with
  | [] => .ends (.crashes .noFrame)
  | frame :: below =>
    let negations := tokens.takeWhile isNegation
    let frame := { frame with negations := frame.negations + negations.length }
    match tokens.dropWhile isNegation with
    | [] => .ends (.raises .operandExpected [])
    | token :: rest =>
      match token.lexeme with
      | .operand value => .goesOn ⟨.inner (some (.operand value)), frame :: below, rest⟩
      | .bracket .left => .goesOn ⟨.outer, { opening := some token } :: frame :: below, rest⟩
      | _ => .ends (.raises (.unexpected token) (token :: rest))

/-- Takes the closing bracket of the level and pops its frame. At the bottom no token may be left.
-/
def endLevel (frame : Frame α) (below : List (Frame α)) (tokens : List (Token α)) : Pass α :=
  match frame.opening, tokens with
  | none, [] => .ends (.returns frame.expression)
  | none, token :: rest => .ends (.raises (.unexpected token) (token :: rest))
  | some opening, [] => .ends (.raises (.unclosed opening.position) [])
  | some _, token :: rest =>
    match token.lexeme with
    | .bracket .right => .goesOn ⟨.inner frame.expression, below, rest⟩
    | _ => .ends (.raises (.unexpected token) (token :: rest))

def innerPass (node : Option (Formula α)) (frames : List (Frame α)) (tokens : List (Token α)) :
    Pass α :=
  match frames with
  | [] => .ends (.crashes .noFrame)
  | frame :: below =>
    match frame.addFactor node with
    | .error crash => .ends (.crashes crash)
    | .ok frame =>
      match matchOperator .junction tokens with
      | some (op, rest) => .goesOn ⟨.outer, { frame with termOp := some op } :: below, rest⟩
      | none =>
        match frame.endTerm with
        | .error crash => .ends (.crashes crash)
        | .ok frame =>
          match matchOperator .implication tokens with
          | some (op, rest) =>
            .goesOn ⟨.outer, { frame with expressionOp := some op } :: below, rest⟩
          | none => endLevel frame below tokens

namespace Point

def start (tokens : List (Token α)) : Point α := ⟨.outer, [{}], tokens⟩

def pass (p : Point α) : Pass α :=
  match p.loop with
  | .outer => outerPass p.frames p.rest
  | .inner node => innerPass node p.frames p.rest

end Point

/-! ## A pass that goes on takes a token -/

def BeginsFactor (token : Token α) : Prop :=
  (∃ value, token.lexeme = .operand value) ∨ token.lexeme = .bracket .left

variable {frames : List (Frame α)} {tokens rest : List (Token α)} {p q : Point α}

theorem exists_token_of_outerPass (h : outerPass frames tokens = .goesOn q) :
    ∃ negations token, tokens = negations ++ token :: q.rest ∧
      (∀ t ∈ negations, isNegation t) ∧ BeginsFactor token := by
  have hsplit : tokens.takeWhile isNegation ++ tokens.dropWhile isNegation = tokens :=
    List.takeWhile_append_dropWhile
  have hnegations : ∀ t ∈ tokens.takeWhile isNegation, isNegation t :=
    List.all_eq_true.mp List.all_takeWhile
  unfold outerPass at h
  split at h
  · cases h
  · dsimp only at h
    split at h
    · cases h
    · next token rest hd =>
      rw [hd] at hsplit
      split at h
      · next value hl =>
        cases h
        exact ⟨_, token, hsplit.symm, hnegations, .inl ⟨value, hl⟩⟩
      · next hl =>
        cases h
        exact ⟨_, token, hsplit.symm, hnegations, .inr hl⟩
      · cases h

theorem exists_token_of_matchOperator {tier : Tier} {op : BinaryOp}
    (h : matchOperator tier tokens = some (op, rest)) : ∃ token, tokens = token :: rest := by
  unfold matchOperator at h
  split at h
  · split at h
    · cases h
      exact ⟨_, rfl⟩
    · cases h
  · cases h

theorem exists_token_of_endLevel {frame : Frame α} (h : endLevel frame frames tokens = .goesOn q) :
    ∃ token, tokens = token :: q.rest := by
  unfold endLevel at h
  split at h
  · cases h
  · cases h
  · cases h
  · split at h
    · cases h
      exact ⟨_, rfl⟩
    · cases h

theorem exists_token_of_innerPass {node : Option (Formula α)}
    (h : innerPass node frames tokens = .goesOn q) : ∃ token, tokens = token :: q.rest := by
  unfold innerPass at h
  split at h
  · cases h
  · split at h
    · cases h
    · split at h
      · next hm =>
        cases h
        exact exists_token_of_matchOperator hm
      · split at h
        · cases h
        · split at h
          · next hm =>
            cases h
            exact exists_token_of_matchOperator hm
          · exact exists_token_of_endLevel h

theorem Point.rest_lt_of_pass (h : p.pass = .goesOn q) : q.rest.length < p.rest.length := by
  unfold pass at h
  split at h
  · obtain ⟨negations, token, hr, -⟩ := exists_token_of_outerPass h
    rw [hr, List.length_append, List.length_cons]
    omega
  · obtain ⟨token, hr⟩ := exists_token_of_innerPass h
    rw [hr]
    exact Nat.lt_succ_self _

/-- Passes of either loop until one of them ends the reading. -/
def run (p : Point α) : Ending α :=
  match _h : p.pass with
  | .goesOn next => run next
  | .ends ending => ending
termination_by p.rest.length
decreasing_by exact Point.rest_lt_of_pass _h

end Sentential.Parser.Loops
