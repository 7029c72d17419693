import IconRegistry.Command.Add

/-!
The arguments of the command line: switches with one or two hyphens, words, and two hyphens that make words of all
that follows. Every switch is given at most once, and those of the program stand before the name of the command.
-/

namespace IconRegistry.CommandLine

open Config

/-- A switch: its name, the letter it may be given by, and whether a value belongs to it. -/
structure Switch where
  name : String
  letter? : Option Char := none
  takesValue : Bool := false
  allowsEmpty : Bool := true

/-- Why reading ends before the arguments do: they are wrong, or help or the version is asked for. -/
inductive Halt
  | usage
  | help
  | version
  deriving DecidableEq

/-- What was found: the switches given with their values, and the words. -/
structure Found where
  given : List (String × Text) := []
  words : List Text := []

def Found.value? (found : Found) (name : String) : Option Text :=
  found.given.lookup name

def Found.has (found : Found) (name : String) : Bool :=
  (found.value? name).isSome

def Found.give (found : Found) (switch : Switch) (value : Text) : Except Halt Found :=
  if found.has switch.name || (switch.takesValue && value.isEmpty && !switch.allowsEmpty) then .error .usage
  else .ok { found with given := found.given ++ [(switch.name, value)] }

/-- The switches that a part of the command line knows, whether it tells the version, and whether it takes words. -/
structure Grammar where
  switches : List Switch
  hasVersion : Bool := false
  hasWords : Bool := false

/-- What asks for help or the version. -/
def Grammar.halt? (grammar : Grammar) (name : String) (letter : Char) : Option Halt :=
  if name == "help" || letter == 'h' then some .help
  else if grammar.hasVersion && (name == "version" || letter == 'V') then some .version
  else none

/-- Reads the letters behind one hyphen. A switch that still lacks its value is given back. -/
def letters (grammar : Grammar) (found : Found) : List Char → Except Halt (Found × Option Switch)
  | [] => .ok (found, none)
  | c :: rest =>
    match grammar.halt? "" c, grammar.switches.find? (·.letter? == some c) with
    | some halt, _ => .error halt
    | none, none => .error .usage
    | none, some switch =>
      if switch.takesValue then
        if rest.isEmpty then .ok (found, some switch)
        else (found.give switch ((Text.dropFront? ['='] rest).getD rest)).map fun found => (found, none)
      else do
        let found ← found.give switch []
        letters grammar found rest

/-- Reads a switch behind two hyphens. One that still lacks its value is given back. -/
def longSwitch (grammar : Grammar) (found : Found) (s : Text) : Except Halt (Found × Option Switch) := do
  let (name, value?) := match Text.splitOnce? '=' s with
    | some (name, value) => (name, some value)
    | none => (s, none)
  let name := String.ofList name
  match grammar.halt? name ' ', grammar.switches.find? (·.name == name), value? with
  | some halt, _, none => throw halt
  | none, some switch, some value =>
    if !switch.takesValue then throw .usage
    return (← found.give switch value, none)
  | none, some switch, none =>
    if switch.takesValue then return (found, some switch)
    return (← found.give switch [], none)
  | _, _, _ => throw .usage

/-- How an argument reads. -/
inductive Shape
  | word
  | separator
  | long (rest : Text)
  | short (rest : Text)

/-- The shape of an argument. A single hyphen is a word. -/
def Shape.of : Text → Shape
  | ['-', '-'] => separator
  | '-' :: '-' :: rest => long rest
  | '-' :: c :: rest => short (c :: rest)
  | _ => word

/-- Reads arguments up to the first word, where `stops` is on, and gives the rest from that word on. A switch that lacks
its value takes the next argument, which must not look like a switch. -/
def read (grammar : Grammar) (stops : Bool) (found : Found) :
    (lacking : Option Switch) → List Text → Except Halt (Found × List Text)
  | none, [] => .ok (found, [])
  | some _, [] => .error .usage
  | some switch, argument :: rest =>
    match Shape.of argument with
    | .word => do
      let found ← found.give switch argument
      read grammar stops found none rest
    | _ => .error .usage
  | none, argument :: rest =>
    match Shape.of argument with
    | .separator =>
      if grammar.hasWords then .ok ({ found with words := found.words ++ rest }, [])
      else if rest.isEmpty then .ok (found, [])
      else .error .usage
    | .long s => do
      let (found, lacking) ← longSwitch grammar found s
      read grammar stops found lacking rest
    | .short s => do
      let (found, lacking) ← letters grammar found s
      read grammar stops found lacking rest
    | .word =>
      if stops then .ok (found, argument :: rest)
      else if grammar.hasWords then read grammar stops { found with words := found.words ++ [argument] } none rest
      else .error .usage

inductive Action
  | init (yes : Bool)
  | add (icons : List Text) (mode : AddMode) (overrides : Overrides)
  | remove (icons : List Text)
  | list (available : Bool)
  | clear (yes : Bool)

/-- What the arguments ask for: an action, with a configuration file, and with a verbose log or not. -/
structure Invocation where
  config : Text
  verbose : Bool
  action : Action

/-- The switches of the program. -/
def programGrammar : Grammar :=
  { switches := [⟨"config", some 'c', true, false⟩, ⟨"verbose", some 'v', false, true⟩], hasVersion := true }

/-- The switches that override settings. -/
def overrideSwitches : List Switch :=
  [⟨"a11y", none, true, true⟩, ⟨"track-source", none, false, true⟩, ⟨"forward-ref", none, false, true⟩]

/-- The overrides that were given. -/
def overridesIn (found : Found) : Overrides :=
  ⟨found.value? "a11y", found.has "track-source", found.has "forward-ref"⟩

def commandNames : List String :=
  ["init", "add", "replace", "remove", "list", "clear", "help"]

def readAll (grammar : Grammar) (arguments : List Text) : Except Halt Found := do
  let (found, _) ← read grammar false {} none arguments
  if grammar.hasWords && found.words.isEmpty then throw .usage
  return found

/-- Reads the arguments behind the word `help`: the name of a command or nothing. -/
def readHelp {α : Type} (arguments : List Text) : Except Halt α :=
  match arguments with
  | [] => .error .help
  | [name] => if commandNames.contains (String.ofList name) then .error .help else .error .usage
  | _ => .error .usage

def readAction (name : Text) (arguments : List Text) : Except Halt Action := do
  let yes : Switch := ⟨"yes", some 'y', false, true⟩
  let force : Switch := ⟨"force", some 'f', false, true⟩
  match String.ofList name with
  | "init" =>
    let found ← readAll { switches := [yes] } arguments
    return .init (found.has "yes")
  | "add" =>
    let found ← readAll { switches := force :: overrideSwitches, hasWords := true } arguments
    return .add found.words (if found.has "force" then .upsert else .add) (overridesIn found)
  | "replace" =>
    let found ← readAll { switches := overrideSwitches, hasWords := true } arguments
    return .add found.words .replace (overridesIn found)
  | "remove" =>
    let found ← readAll { switches := [], hasWords := true } arguments
    return .remove found.words
  | "list" =>
    let found ← readAll { switches := [⟨"available", none, false, true⟩] } arguments
    return .list (found.has "available")
  | "clear" =>
    let found ← readAll { switches := [yes] } arguments
    return .clear (found.has "yes")
  | "help" => readHelp arguments
  | _ => throw .usage

def Invocation.read (arguments : List Text) : Except Halt Invocation := do
  match ← CommandLine.read programGrammar true {} none arguments with
  | (found, name :: rest) =>
    let action ← readAction name rest
    return ⟨(found.value? "config").getD "iconsmith.toml".toList, found.has "verbose", action⟩
  | (_, []) => throw .usage

end IconRegistry.CommandLine
