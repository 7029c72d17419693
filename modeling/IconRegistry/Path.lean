import IconRegistry.Text.Substitution

/-!
Paths as texts: pieces between slashes. Empty pieces and single dots name nothing, except for a dot at the front; the
path that begins with a slash is absolute.
-/

namespace IconRegistry.Path

def isAbsolute (path : Text) : Bool :=
  path.head? == some '/'

/-- Whether a piece of a path names nothing. -/
def isIdle (piece : Text) : Bool :=
  piece == [] || piece == ['.']

/-- Whether a piece points to the directory above. -/
def isUpward (piece : Text) : Bool :=
  piece == ['.', '.']

/-- The components of a path that names something below a directory. A single dot counts at the front only. -/
def components (path : Text) : List Text :=
  match Text.splitAtChar '/' path with
  | [] => []
  | first :: rest => (if first == [] then [] else [first]) ++ rest.filter (!isIdle ·)

/-- The last component of a path; nothing if it is missing or does not name an entry of a directory. -/
def fileName? (path : Text) : Option Text :=
  ((Text.splitAtChar '/' path).filter (!isIdle ·)).getLast?.filter (!isUpward ·)

/-- A file name before and behind its last dot; nothing if there is no dot, or none but at the front. -/
def splitExtension? (name : Text) : Option (Text × Text) :=
  let reversed := name.reverse
  match reversed.dropWhile (· != '.') with
  | _ :: c :: stem => some ((c :: stem).reverse, (reversed.takeWhile (· != '.')).reverse)
  | _ => none

def extension? (path : Text) : Option Text := do
  return (← splitExtension? (← fileName? path)).2

def stem? (path : Text) : Option Text :=
  (fileName? path).map fun name => ((splitExtension? name).map (·.1)).getD name

/-- A path below another one. An absolute path stays itself. -/
def join (path below : Text) : Text :=
  if isAbsolute below || path.isEmpty then below
  else if path.getLast? == some '/' then path ++ below
  else path ++ '/' :: below

/-- The pieces of a path without the idle ones at its end. A leading dot is not idle. -/
def withoutIdleEnd (pieces : List Text) : List Text :=
  match pieces with
  | [] => []
  | first :: rest => first :: (rest.reverse.dropWhile isIdle).reverse

/-- The path of the directory that a path names something in; nothing for the root and for the empty path. -/
def parent? (path : Text) : Option Text :=
  match withoutIdleEnd (Text.splitAtChar '/' path) with
  | [] => none
  | [piece] => if piece.isEmpty then none else some []
  | pieces =>
    let above := Text.join ['/'] (withoutIdleEnd pieces.dropLast)
    some (if above.isEmpty && isAbsolute path then ['/'] else above)

/-- A path and the directories above it, the nearest first, at most `fuel` of them. -/
def upwardsWithin : (fuel : Nat) → Text → List Text
  | 0, path => [path]
  | fuel + 1, path =>
    match parent? path with
    | some above => path :: upwardsWithin fuel above
    | none => [path]

/-- A path and the directories above it, the nearest first. -/
def upwards (path : Text) : List Text :=
  upwardsWithin path.length path

def withoutSlashes (path : Text) : Text :=
  (path.reverse.dropWhile (· == '/')).reverse

end IconRegistry.Path
