/-!
# Fields

A separator cuts a text into fields. There is one field more than there are separators.
-/
namespace Sentential.Text

def fields (separator : Char) : List Char → List (List Char)
  | [] => [[]]
  | c :: rest =>
    if c = separator then [] :: fields separator rest
    else
      match fields separator rest with
      | field :: more => (c :: field) :: more
      | [] => [[c]]

theorem fields_ne_nil (separator : Char) (s : List Char) : fields separator s ≠ [] := by
  cases s with
  | nil => simp [fields]
  | cons c rest =>
    unfold fields
    split
    · simp
    · split <;> simp

theorem length_fields (separator : Char) (s : List Char) :
    (fields separator s).length = s.count separator + 1 := by
  induction s with
  | nil => rfl
  | cons c rest ih =>
    unfold fields
    split
    · next h => simp [h, ih]
    · next h =>
      split
      · next field more hf => simpa [hf, List.count_cons, h] using ih
      · next hf => exact absurd hf (fields_ne_nil separator rest)

end Sentential.Text
