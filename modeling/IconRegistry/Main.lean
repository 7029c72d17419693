import IconRegistry.CommandLine.Run

/-!
The program. What a run can read is taken from the disk into a store, the run changes the store, and the changes go
back to the disk.
-/

namespace IconRegistry.Program

open CommandLine

def shown (here : Location) : String :=
  String.ofList ('/' :: Text.join ['/'] here)

/-- Takes what is at a location into a store: a file with its content, and a directory with what is in it, as many
levels deep as `depth` says. -/
def take (depth : Nat) (here : Location) (store : Store) : IO Store := do
  let path := (← IO.currentDir) / shown here
  if ← path.isDir then
    let store := store.put here .directory
    match depth with
    | 0 => return store
    | depth + 1 =>
      let mut store := store
      for entry in ← path.readDir do
        store ← take depth (here ++ [entry.fileName.toList]) store
      return store
  else if ← path.pathExists then
    let bytes ← IO.FS.readBinFile path
    match String.fromUTF8? bytes with
    | some text => return store.put here (.file text.toList)
    | none => return store.put here (.binary bytes.toList)
  else return store

/-- Takes what a path leads to into a store, with the directories on the way. -/
def takePath (depth : Nat) (path : Text) (store : Store) : IO Store := do
  let mut here := if Path.isAbsolute path then [] else store.base
  let mut store := store
  for piece in Text.splitAtChar '/' path do
    if Path.isUpward piece then here := here.dropLast
    else if !Path.isIdle piece then
      here := here ++ [piece]
      store ← take 0 here store
  take depth here store

/-- The number of levels of an icons directory that are looked at. -/
def deepestIcons : Nat :=
  64

/-- Takes what an invocation can read into a store: the configuration file, and then the places that it names. -/
def takeFor (invocation : Invocation) (store : Store) : IO Store := do
  let store ← takePath 0 invocation.config store
  match ((Command.loadSettings invocation.config).run ⟨store, []⟩).1 with
  | .error _ => return store
  | .ok settings =>
    let store ← takePath 1 settings.registryPath store
    takePath deepestIcons settings.iconsDirectory store

/-- Brings a change of a store to the disk. -/
def give (before after : Store) : IO Unit := do
  for (here, node) in after.nodes.reverse do
    if before.node? here != some node then
      match node with
      | .directory => IO.FS.createDirAll (shown here)
      | .file text => IO.FS.writeFile (shown here) (String.ofList text)
      | .binary bytes => IO.FS.writeBinFile (shown here) ⟨bytes.toArray⟩
  for (here, _) in before.nodes do
    if (after.node? here).isNone then IO.FS.removeFile (shown here)

/-- The store that knows of nothing but the working directory. -/
def startStore : IO Store := do
  let here := (Text.splitAtChar '/' (← IO.currentDir).toString.toList).filter (!Path.isIdle ·)
  let above := (List.range here.length).map fun n => (here.take (n + 1), Store.Node.directory)
  return ⟨here, above⟩

def answer (response : Response) : IO UInt32 := do
  IO.print (String.ofList response.output)
  IO.eprint (String.ofList response.errors)
  return response.exitCode.toUInt32

end IconRegistry.Program

open IconRegistry in
def main (arguments : List String) : IO UInt32 := do
  match CommandLine.Invocation.read (arguments.map String.toList) with
  | .error halt => Program.answer halt.response
  | .ok invocation =>
    let before ← Program.takeFor invocation (← Program.startStore)
    let (response, after) := invocation.run before
    Program.give before after
    Program.answer response
