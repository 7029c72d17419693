import IconRegistry.Path
import IconRegistry.Store.FileError

/-!
Stores: files and directories held as a value. A store lists what is at each location; a path is followed from piece to
piece, and every directory on the way has to be there. Operations on single files either succeed or change nothing.
-/

namespace IconRegistry

/-- A location: the names on the way from the root. -/
abbrev Location := List Text

/-- What is at a location: a directory, a file that holds text, or a file that does not. -/
inductive Store.Node
  | directory
  | file (text : Text)
  | binary (bytes : List UInt8)
  deriving DecidableEq

/-- A store: what is at which location, and the location that relative paths start from. -/
structure Store where
  base : Location
  nodes : List (Location × Store.Node)

namespace Store

def node? (store : Store) (here : Location) : Option Node :=
  if here.isEmpty then some .directory else store.nodes.lookup here

def put (store : Store) (here : Location) (node : Node) : Store :=
  { store with nodes := (here, node) :: store.nodes.filter (·.1 != here) }

def erase (store : Store) (here : Location) : Store :=
  { store with nodes := store.nodes.filter (·.1 != here) }

/-- The number of bytes that a name may have. -/
def longestName : Nat :=
  255

/-- The number of bytes that a path may have. -/
def longestPath : Nat :=
  4095

/-- Follows the pieces of a path. What they lead to need not be there, but all directories on the way. -/
def follow (store : Store) : List Text → Location → Except FileError Location
  | [], here => .ok here
  | piece :: rest, here =>
    match store.node? here with
    | none => .error .notFound
    | some .directory =>
      if Path.isIdle piece then follow store rest here
      else if Path.isUpward piece then follow store rest here.dropLast
      else if Text.byteLength piece > longestName then .error .nameTooLong
      else follow store rest (here ++ [piece])
    | some _ => .error .notDirectory

def locate (store : Store) (path : Text) : Except FileError Location :=
  if path.contains '\x00' then .error .nulInName
  else if path.isEmpty then .error .notFound
  else if Text.byteLength path > longestPath then .error .nameTooLong
  else store.follow (Text.splitAtChar '/' path) (if Path.isAbsolute path then [] else store.base)

def find? (store : Store) (path : Text) : Option Node :=
  (store.locate path).toOption.bind store.node?

def contains (store : Store) (path : Text) : Bool :=
  (store.find? path).isSome

def readText (store : Store) (path : Text) : Except FileError Text := do
  match store.node? (← store.locate path) with
  | none => throw .notFound
  | some .directory => throw .isDirectory
  | some (.binary _) => throw .notText
  | some (.file text) => return text

/-- The location of an entry that is to be made or replaced. Slashes may stand behind its path and count for its
length. -/
def locateEntry (store : Store) (path : Text) : Except FileError Location :=
  let name := Path.withoutSlashes path
  store.locate (if name.isEmpty || Text.byteLength path > longestPath then path else name)

/-- The store with a text in a file, which is made if it is not there. -/
def writeText (store : Store) (path text : Text) : Except FileError Store := do
  let here ← store.locateEntry path
  let slashed := path.getLast? == some '/'
  match store.node? here with
  | some .directory => throw .isDirectory
  | none => if slashed then throw .isDirectory else return store.put here (.file text)
  | some _ => if slashed then throw .notDirectory else return store.put here (.file text)

def makeDirectory (store : Store) (path : Text) : Except FileError Store := do
  let here ← store.locateEntry path
  if (store.node? here).isSome then throw .alreadyExists
  return store.put here .directory

def removeFile (store : Store) (path : Text) : Except FileError Store := do
  let here ← store.locate path
  match store.node? here with
  | none => throw .notFound
  | some .directory => throw .isDirectory
  | some _ => return store.erase here

def hasDirectory (store : Store) (path : Text) : Bool :=
  store.find? path == some .directory

/-- Makes a directory and those above it, given its path and theirs. What was made before a failure stays. -/
def makeDirectoriesFrom : List Text → Store → Store × Except FileError Unit
  | [], store => (store, .error (.other "failed to create whole tree".toList))
  | path :: above, store =>
    if path.isEmpty then (store, .ok ())
    else
      let settle := fun (store : Store) (e : FileError) =>
        (store, if store.hasDirectory path then Except.ok () else .error e)
      match store.makeDirectory path with
      | .ok made => (made, .ok ())
      | .error .notFound =>
        match makeDirectoriesFrom above store with
        | (store, .error e) => (store, .error e)
        | (store, .ok ()) =>
          match store.makeDirectory path with
          | .ok made => (made, .ok ())
          | .error e => settle store e
      | .error e => settle store e

/-- Makes a directory and those above it, as far as they are not there. -/
def makeDirectories (store : Store) (path : Text) : Store × Except FileError Unit :=
  makeDirectoriesFrom (Path.upwards path) store

/-- All files below a location, each by the names on the way from there. -/
def filesBelow (store : Store) (here : Location) : List Location :=
  (store.nodes.filter fun entry => here.isPrefixOf entry.1 && entry.1 != here && entry.2 != .directory).map
    fun entry => entry.1.drop here.length

end Store

end IconRegistry
