/-!
# Runs of characters

A text falls into the maximal runs of a class of characters and the single characters outside the
class. The pieces in order give back the text.
-/
namespace Sentential.Text

/-- The maximal runs of a class and the single characters between them. -/
def runs (p : Char → Bool) : List Char → List (List Char)
  | [] => []
  | c :: rest =>
    match runs p rest with
    | (d :: run) :: more =>
      if p c && p d then (c :: d :: run) :: more else [c] :: (d :: run) :: more
    | more => [c] :: more

theorem flatten_runs (p : Char → Bool) (s : List Char) : (runs p s).flatten = s := by
  induction s with
  | nil => rfl
  | cons c rest ih =>
    unfold runs
    split
    · next d run more h =>
      rw [h] at ih
      split <;> simp_all
    · simp [ih]

theorem ne_nil_of_mem_runs {p : Char → Bool} {s run : List Char} (h : run ∈ runs p s) :
    run ≠ [] := by
  induction s generalizing run with
  | nil => simp [runs] at h
  | cons c rest ih =>
    unfold runs at h
    split at h
    · next d tail more hr =>
      split at h
      · rcases List.mem_cons.mp h with rfl | h
        · simp
        · exact ih (by simp [hr, h])
      · rcases List.mem_cons.mp h with rfl | h
        · simp
        · exact ih (by simpa [hr] using h)
    · rcases List.mem_cons.mp h with rfl | h
      · simp
      · exact ih h

end Sentential.Text
