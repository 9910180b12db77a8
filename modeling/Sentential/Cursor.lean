/-!
# Cursors

A cursor is a place in a list. Looking past the end finds nothing. A reader of characters moves on
in any case, a reader of tokens only over an item.
-/
namespace Sentential

structure Cursor (α : Type) where
  items : List α
  position : Nat := 0
  deriving DecidableEq, Repr

namespace Cursor

variable {α : Type}

def peek (c : Cursor α) : Option α := c.items[c.position]?

def advance (c : Cursor α) : Option α × Cursor α :=
  (c.peek, { c with position := c.position + 1 })

def next (c : Cursor α) : Option α × Cursor α :=
  match c.peek with
  | some item => (some item, { c with position := c.position + 1 })
  | none => (none, c)

def rest (c : Cursor α) : List α := c.items.drop c.position

theorem next_items (c : Cursor α) : c.next.2.items = c.items := by
  unfold next
  split <;> rfl

theorem next_of_peek {c : Cursor α} {item : α} (h : c.peek = some item) :
    c.next = (some item, { c with position := c.position + 1 }) := by
  rw [next, h]

theorem next_of_peek_eq_none {c : Cursor α} (h : c.peek = none) : c.next = (none, c) := by
  rw [next, h]

theorem next_eq_some_iff {c d : Cursor α} {item : α} :
    c.next = (some item, d) ↔ c.peek = some item ∧ d = { c with position := c.position + 1 } := by
  cases h : c.peek with
  | none => simp [next_of_peek_eq_none h]
  | some first => rw [next_of_peek h, Prod.mk.injEq, eq_comm (a := d)]

theorem next_fst (c : Cursor α) : c.next.1 = c.peek := by
  cases h : c.peek with
  | none => rw [next_of_peek_eq_none h]
  | some item => rw [next_of_peek h]

theorem position_eq_length {c : Cursor α} (h : c.peek = none)
    (hc : c.position ≤ c.items.length) : c.position = c.items.length :=
  Nat.le_antisymm hc (List.getElem?_eq_none_iff.mp h)

theorem head?_rest (c : Cursor α) : c.rest.head? = c.peek := List.head?_drop

theorem rest_of_peek {c : Cursor α} {item : α} (h : c.peek = some item) :
    c.rest = item :: c.next.2.rest := by
  obtain ⟨hlt, hitem⟩ := List.getElem?_eq_some_iff.mp h
  rw [next_of_peek h, rest, rest, List.drop_eq_getElem_cons hlt, hitem]

theorem rest_of_peek_eq_none {c : Cursor α} (h : c.peek = none) : c.rest = [] :=
  List.drop_eq_nil_of_le (List.getElem?_eq_none_iff.mp h)

theorem next_position_le (c : Cursor α) (h : c.position ≤ c.items.length) :
    c.next.2.position ≤ c.items.length := by
  unfold next
  split
  · next item hi =>
    obtain ⟨hlt, _⟩ := List.getElem?_eq_some_iff.mp hi
    exact hlt
  · exact h

end Cursor

end Sentential
