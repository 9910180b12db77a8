import Mathlib.Data.List.Nodup
import Sentential.Proofs.Lexing
import Sentential.Token.Stream

/-!
# Readers that share a cursor

Whoever reads at a shared cursor moves it by taking tokens one by one, a parse as much as a single
request for a token. So the tokens that are handed out over a session, to whichever reader, are the
tokens of the source in order up to the cursor, and none is handed out twice. A parse only sees the
tokens from the cursor on, and where it stops tells how it ended.
-/
namespace Sentential

namespace Cursor

variable {α : Type}

/-- The items that are handed out one after the other between two places of the cursor. -/
inductive Takes : Cursor α → List α → Cursor α → Prop where
  | refl {c : Cursor α} : Takes c [] c
  | next {c d e : Cursor α} {item : α} {taken : List α} :
      c.next = (some item, d) → Takes d taken e → Takes c (item :: taken) e

namespace Takes

variable {c d e : Cursor α} {taken more : List α}

theorem of_next (c : Cursor α) : Takes c c.peek.toList c.next.2 := by
  cases h : c.peek with
  | none =>
    rw [next_of_peek_eq_none h]
    exact .refl
  | some item =>
    rw [next_of_peek h]
    exact .next (next_of_peek h) .refl

theorem of_peek {item : α} (hp : c.peek = some item) (h : Takes c.next.2 taken d) :
    Takes c (item :: taken) d := by
  rw [next_of_peek hp] at h
  exact .next (next_of_peek hp) h

theorem trans (h₁ : Takes c taken d) (h₂ : Takes d more e) : Takes c (taken ++ more) e := by
  induction h₁ with
  | refl => exact h₂
  | next hn _ ih => exact .next hn (ih h₂)

theorem items_eq (h : Takes c taken d) : d.items = c.items := by
  induction h with
  | refl => rfl
  | next hn _ ih =>
    obtain ⟨-, rfl⟩ := next_eq_some_iff.mp hn
    exact ih

theorem rest_eq (h : Takes c taken d) : c.rest = taken ++ d.rest := by
  induction h with
  | refl => rfl
  | next hn _ ih =>
    obtain ⟨hp, -⟩ := next_eq_some_iff.mp hn
    rw [rest_of_peek hp, hn, ih, List.cons_append]

theorem position_eq (h : Takes c taken d) : d.position = c.position + taken.length := by
  induction h with
  | refl => rfl
  | next hn _ ih =>
    obtain ⟨-, rfl⟩ := next_eq_some_iff.mp hn
    rw [ih, List.length_cons, Nat.add_right_comm, Nat.add_assoc]

theorem position_le (h : Takes c taken d) : c.position ≤ d.position :=
  h.position_eq ▸ Nat.le_add_right _ _

theorem position_le_length (h : Takes c taken d) (hc : c.position ≤ c.items.length) :
    d.position ≤ d.items.length := by
  induction h with
  | refl => exact hc
  | @next c _ _ _ _ hn _ ih =>
    have hnext := c.next_position_le hc
    have hitems := c.next_items
    rw [hn] at hnext hitems
    exact ih (hitems ▸ hnext)

end Takes

end Cursor

namespace Parser

theorem State.eq_unexpected_of_step {α : Type} {s : State α} {token : Token α}
    {e : GrammarError α} (h : s.step token = .error e) : e = .unexpected token := by
  obtain ⟨groups, level, expects⟩ := s
  obtain ⟨lexeme, position⟩ := token
  cases expects with
  | operand =>
    rcases lexeme with value | (_ | op) | (_ | _)
    all_goals cases h <;> rfl
  | operator term =>
    rcases lexeme with value | (_ | op) | (_ | _)
    all_goals cases groups <;> cases h <;> rfl

theorem State.position?_of_finish {α : Type} {s : State α} {e : GrammarError α}
    (h : s.finish = .error e) : e.position? = none := by
  obtain ⟨groups, level, expects⟩ := s
  cases expects <;> cases groups <;> cases h <;> rfl

end Parser

namespace TokenStream

open Cursor (Takes)

theorem parseFrom_takes (state : Parser.State Bool) (s : TokenStream) :
    ∃ taken, Takes s taken (parseFrom state s).2 := by
  fun_induction parseFrom state s with
  | case1 state s h => exact ⟨[], .refl⟩
  | case2 state s token h next hstep ih =>
    obtain ⟨taken, ht⟩ := ih
    exact ⟨token :: taken, .of_peek h ht⟩
  | case3 state s token h e hstep => exact ⟨[], .refl⟩

/-- A parse reads the tokens from the cursor on, and no others. -/
theorem parseFrom_result (state : Parser.State Bool) (s : TokenStream) :
    (parseFrom state s).1 = (Parser.run state s.rest).mapError Parser.Failure.error := by
  fun_induction parseFrom state s with
  | case1 state s h =>
    rw [Cursor.rest_of_peek_eq_none h, Parser.run]
    cases state.finish <;> rfl
  | case2 state s token h next hstep ih => rw [ih, Cursor.rest_of_peek h, Parser.run, hstep]
  | case3 state s token h e hstep =>
    rw [Cursor.rest_of_peek h, Parser.run, hstep]
    rfl

/-- Where a parse leaves the cursor: in front of the token at fault, or at the end. -/
inductive Stops : Except (GrammarError Bool) (Formula Bool) → TokenStream → Prop where
  | parsed {f : Formula Bool} {t : TokenStream} : t.position = t.items.length → Stops (.ok f) t
  | atEnd {e : GrammarError Bool} {t : TokenStream} : e.position? = none →
      t.position = t.items.length → Stops (.error e) t
  | atToken {e : GrammarError Bool} {t : TokenStream} {token : Token Bool} :
      e.position? = some token.position → t.items[t.position]? = some token → Stops (.error e) t

theorem parseFrom_stops (state : Parser.State Bool) (s : TokenStream)
    (hs : s.position ≤ s.items.length) :
    Stops (parseFrom state s).1 (parseFrom state s).2 := by
  fun_induction parseFrom state s with
  | case1 state s h =>
    have hend := Cursor.position_eq_length h hs
    cases hf : state.finish with
    | ok f => exact .parsed hend
    | error e => exact .atEnd (Parser.State.position?_of_finish hf) hend
  | case2 state s token h next hstep ih =>
    refine ih ?_
    rw [Cursor.next_items]
    exact s.next_position_le hs
  | case3 state s token h e hstep =>
    obtain rfl := Parser.State.eq_unexpected_of_step hstep
    exact .atToken rfl h

/-! ## Sessions -/

/-- What a parse of the tokens alone comes to. -/
def parseAlone (tokens : List (Token Bool)) : Except (GrammarError Bool) (Formula Bool) :=
  (parse ⟨tokens, 0⟩).1

theorem parse_result (s : TokenStream) : s.parse.1 = parseAlone s.rest :=
  (parseFrom_result {} s).trans (parseFrom_result {} ⟨s.rest, 0⟩).symm

/-- One request at a cursor: its answer, the cursor after it, and the tokens taken for it. -/
inductive Exchange (s : TokenStream) :
    Request → Reply → TokenStream → List (Token Bool) → Prop where
  | next {t : TokenStream} : Takes s s.items[s.position]?.toList t →
      Exchange s .next (.token s.items[s.position]?) t s.items[s.position]?.toList
  | peek : Exchange s .peek (.token s.items[s.position]?) s []
  | count : Exchange s .count (.count s.items.length) s []
  | parse {t : TokenStream} {taken : List (Token Bool)} : Takes s taken t →
      Stops (parseAlone (s.items.drop s.position)) t →
      Exchange s .parse (.parsed (parseAlone (s.items.drop s.position))) t taken

theorem exchange_answer (s : TokenStream) (hs : s.position ≤ s.items.length) (r : Request) :
    ∃ taken, Exchange s r (s.answer r).1 (s.answer r).2 taken := by
  cases r with
  | next =>
    refine ⟨s.items[s.position]?.toList, ?_⟩
    rw [answer, Cursor.next_fst]
    exact .next (.of_next s)
  | peek => exact ⟨[], .peek⟩
  | count => exact ⟨[], .count⟩
  | parse =>
    obtain ⟨taken, ht⟩ := parseFrom_takes {} s
    have hstops : Stops s.parse.1 s.parse.2 := parseFrom_stops {} s hs
    rw [answer, parse_result]
    rw [parse_result] at hstops
    exact ⟨taken, .parse ht hstops⟩

theorem Exchange.takes {s t : TokenStream} {r : Request} {reply : Reply}
    {taken : List (Token Bool)} (h : Exchange s r reply t taken) : Takes s taken t := by
  cases h with
  | next h => exact h
  | peek => exact .refl
  | count => exact .refl
  | parse h _ => exact h

/-- Requests answered one after the other, and all the tokens taken for them. -/
inductive Session : TokenStream → List Request → List (Reply × TokenStream) →
    List (Token Bool) → Prop where
  | nil {s : TokenStream} : Session s [] [] []
  | cons {s t : TokenStream} {r : Request} {reply : Reply} {more : List Request}
      {later : List (Reply × TokenStream)} {taken rest : List (Token Bool)} :
      Exchange s r reply t taken → Session t more later rest →
      Session s (r :: more) ((reply, t) :: later) (taken ++ rest)

theorem session_answers (s : TokenStream) (hs : s.position ≤ s.items.length)
    (requests : List Request) : ∃ taken, Session s requests (s.answers requests) taken := by
  induction requests generalizing s with
  | nil => exact ⟨[], .nil⟩
  | cons r more ih =>
    obtain ⟨taken, hr⟩ := exchange_answer s hs r
    obtain ⟨rest, hmore⟩ := ih (s.answer r).2 (hr.takes.position_le_length hs)
    exact ⟨taken ++ rest, .cons hr hmore⟩

namespace Session

variable {s : TokenStream} {requests : List Request} {trace : List (Reply × TokenStream)}
  {taken : List (Token Bool)}

theorem prefix_rest (h : Session s requests trace taken) : taken <+: s.rest := by
  induction h with
  | nil => exact List.nil_prefix
  | cons hr _ ih =>
    rw [hr.takes.rest_eq]
    exact (List.prefix_append_right_inj _).mpr ih

theorem cursors (h : Session s requests trace taken) (hs : s.position ≤ s.items.length) :
    (∀ entry ∈ trace, entry.2.items = s.items ∧ s.position ≤ entry.2.position ∧
      entry.2.position ≤ s.items.length) ∧
    trace.Pairwise fun a b => a.2.position ≤ b.2.position := by
  induction h with
  | nil => exact ⟨fun _ he => (nomatch he), .nil⟩
  | @cons s t r reply more later taken rest hr _ ih =>
    have hitems := hr.takes.items_eq
    have hle := hr.takes.position_le
    have hlength := hr.takes.position_le_length hs
    obtain ⟨hlater, hsorted⟩ := ih hlength
    rw [hitems] at hlater hlength
    refine ⟨List.forall_mem_cons.mpr ⟨⟨hitems, hle, hlength⟩, fun entry he => ?_⟩,
      List.pairwise_cons.mpr ⟨fun entry he => (hlater entry he).2.1, hsorted⟩⟩
    obtain ⟨h₁, h₂, h₃⟩ := hlater entry he
    exact ⟨h₁, hle.trans h₂, h₃⟩

end Session

/-- Over a session on the tokens of a source these stay what they are, and the cursor only moves on,
up to their end. Each request is answered as it would be alone, and no token is taken twice. -/
theorem answers_share (source : List Char) (tokens : List (Token Bool))
    (h : Token.lex source = .ok tokens) (requests : List Request) :
    (∀ entry ∈ answers ⟨tokens, 0⟩ requests,
      entry.2.items = tokens ∧ entry.2.position ≤ tokens.length) ∧
    (answers ⟨tokens, 0⟩ requests).Pairwise (fun a b => a.2.position ≤ b.2.position) ∧
    ∃ taken, Session ⟨tokens, 0⟩ requests (answers ⟨tokens, 0⟩ requests) taken ∧
      taken <+: tokens ∧ taken.Nodup := by
  obtain ⟨taken, hsession⟩ := session_answers ⟨tokens, 0⟩ (Nat.zero_le _) requests
  obtain ⟨hcursors, hsorted⟩ := hsession.cursors (Nat.zero_le _)
  have hprefix : taken <+: tokens := hsession.prefix_rest
  have hnodup : tokens.Nodup := (Token.positions_of_lexWith h).1.imp fun hlt heq =>
    absurd (congrArg Token.position heq) hlt.ne
  refine ⟨fun entry he => ?_, hsorted, taken, hsession, hprefix, hnodup.sublist hprefix.sublist⟩
  obtain ⟨hitems, -, hlength⟩ := hcursors entry he
  exact ⟨hitems, hlength⟩

theorem answers_share_strayBracket :
    Token.lex "true)¬".toList =
        .ok [⟨.operand true, 0⟩, ⟨.bracket .right, 4⟩, ⟨.operator .negation, 5⟩] ∧
      ∃ t : TokenStream,
        answers ⟨[⟨.operand true, 0⟩, ⟨.bracket .right, 4⟩, ⟨.operator .negation, 5⟩], 0⟩ [.parse] =
            [(.parsed (.error (.unexpected ⟨.bracket .right, 4⟩)), t)] ∧
          ∃ token, t.items[t.position]? = some token ∧ token.position = 4 := by
  have h : Token.lex "true)¬".toList =
      .ok [⟨.operand true, 0⟩, ⟨.bracket .right, 4⟩, ⟨.operator .negation, 5⟩] := by rfl
  have halone : parseAlone [⟨.operand true, 0⟩, ⟨.bracket .right, 4⟩, ⟨.operator .negation, 5⟩] =
      .error (.unexpected ⟨.bracket .right, 4⟩) := parseFrom_result {} _
  obtain ⟨-, -, taken, hsession, -⟩ := answers_share _ _ h [.parse]
  refine ⟨h, ?_⟩
  generalize answers _ [Request.parse] = trace at hsession
  cases hsession with
  | cons hr hmore =>
    cases hmore
    cases hr with
    | parse _ hstops =>
      simp only [List.drop_zero, halone] at hstops ⊢
      refine ⟨_, rfl, ?_⟩
      cases hstops with
      | atEnd hnone _ => cases hnone
      | @atToken _ _ token hplace htoken => exact ⟨token, htoken, (Option.some.inj hplace).symm⟩

end TokenStream

end Sentential
