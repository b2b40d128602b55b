import Mathlib.Data.List.Infix

/-!
# Elements with those before them

What is said of an element may depend on the elements before it, as with names that must not be
repeated.
-/

namespace Redaction

variable {α : Type}

/-- The elements of a list, each with those that come before it. -/
def withEarlier (xs : List α) : List (List α × α) := xs.inits.zip xs

theorem withEarlier_cons (x : α) (xs : List α) :
    withEarlier (x :: xs) = ([], x) :: (withEarlier xs).map (Prod.map (x :: ·) id) := by
  rw [withEarlier, List.inits_cons, List.zip_cons_cons, List.zip_map_left, withEarlier]

end Redaction
