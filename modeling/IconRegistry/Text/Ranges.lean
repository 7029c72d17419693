/-!
Sets and maps of code points given by sorted ranges. Look-up stops at the first range that begins
beyond the number asked for.
-/

namespace IconRegistry.Text

def inRanges (n : Nat) : List (Nat × Nat) → Bool
  | [] => false
  | (first, last) :: rest => if n < first then false else n ≤ last || inRanges n rest

/-- Whether `n` is a member of one of the sorted runs `(first, last, step)`. -/
def inRuns (n : Nat) : List (Nat × Nat × Nat) → Bool
  | [] => false
  | (first, last, step) :: rest =>
    if n < first then false else (n ≤ last && (n - first) % step == 0) || inRuns n rest

/-- The image of `n` under the sorted mapping runs `(first, last, step, image of first)`. -/
def imageInRuns? (n : Nat) : List (Nat × Nat × Nat × Nat) → Option Nat
  | [] => none
  | (first, last, step, image) :: rest =>
    if n < first then none
    else if n ≤ last && (n - first) % step == 0 then some (image + (n - first))
    else imageInRuns? n rest

end IconRegistry.Text
