import IconRegistry.Text.Case

/-!
The order of entry names.
-/

namespace IconRegistry.Registry

/-- Names are ordered by their lower-case forms; among names that differ in case only, lower case comes first. -/
def compareNames (a b : Text) : Ordering :=
  (Text.order (Text.toLower a) (Text.toLower b)).then (Text.order b a)

/-- Sorts names, equal ones in the order they came in. -/
def sortNames (names : List Text) : List Text :=
  names.mergeSort fun a b => compareNames a b != .gt

end IconRegistry.Registry
