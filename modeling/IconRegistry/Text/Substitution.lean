import IconRegistry.Text.Basic

/-!
Substitution in a text from left to right. A step looks at what is left of the text and may answer with a
replacement for its first character and a number of characters after it.
-/

namespace IconRegistry.Text

/-- Substitutes in a text whose first `skip` characters are already covered by an earlier replacement. -/
def substituteSkipping (step : Text → Option (Text × Nat)) : Nat → Text → Text
  | _, [] => []
  | skip + 1, _ :: rest => substituteSkipping step skip rest
  | 0, c :: rest =>
    match step (c :: rest) with
    | some (replacement, covered) => replacement ++ substituteSkipping step covered rest
    | none => c :: substituteSkipping step 0 rest

/-- Substitutes in a text from left to right by `step`, which answers with a replacement and the number of characters
it covers beyond the first. -/
def substitute (step : Text → Option (Text × Nat)) (s : Text) : Text :=
  substituteSkipping step 0 s

/-- The text with every occurrence of a nonempty `needle` replaced, from left to right and without overlap. -/
def replaceAll (needle replacement : Text) : Text → Text :=
  substitute fun s => if needle.isPrefixOf s then some (replacement, needle.length - 1) else none

/-- The text before the first `needle` and the text after it, if it occurs. -/
def splitAtText? (needle : Text) : Text → Option (Text × Text)
  | [] => if needle.isEmpty then some ([], []) else none
  | c :: rest =>
    if needle.isPrefixOf (c :: rest) then some ([], (c :: rest).drop needle.length)
    else (splitAtText? needle rest).map fun (before, after) => (c :: before, after)

end IconRegistry.Text
