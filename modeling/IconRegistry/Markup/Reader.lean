import IconRegistry.Markup.Tag

/-!
Reading an element tree. An opening tag whose close tag is missing counts as an element without a body; close tags
are matched by counting the tags of the same name in between.
-/

namespace IconRegistry.Markup

/-- Why a markup text has no element tree. -/
inductive ReadError
  | noRootElement
  | unexpected (found : Text)
  deriving DecidableEq

def ReadError.message : ReadError → Text
  | .noRootElement => "no root element found".toList
  | .unexpected found => "unexpected content: ".toList ++ found

/-- Splits the text behind an opening tag called `name` at its close tag: what is inside and what comes after. `skip`
characters belong to a tag already seen, and `depth` tags of that name are open. -/
def splitAtClose? (name : Text) : (skip depth : Nat) → Text → Option (Text × Text)
  | _, _, [] => none
  | skip + 1, depth, c :: rest =>
    (splitAtClose? name skip depth rest).map fun (inside, after) => (c :: inside, after)
  | 0, depth, c :: rest =>
    match NamedTag.read? name (c :: rest) with
    | none => (splitAtClose? name 0 depth rest).map fun (inside, after) => (c :: inside, after)
    | some tag =>
      let covered := rest.length - tag.rest.length
      match tag.closing, depth with
      | true, 0 => some ([], tag.rest)
      | true, depth' + 1 =>
        (splitAtClose? name covered depth' rest).map fun (inside, after) => (c :: inside, after)
      | false, depth =>
        (splitAtClose? name covered (if closesItself tag.attributes then depth else depth + 1) rest).map
          fun (inside, after) => (c :: inside, after)

/-- Reads the element at the front of a text, given a reader for the nodes inside it, and gives the text after it;
nothing if the text does not start with an opening tag. -/
def readElement? (readInside : Text → Except ReadError (List Node)) (s : Text) :
    Except ReadError (Option (Element × Text)) :=
  match OpenTag.read? s with
  | none => .ok none
  | some tag =>
    let attributes := attributesIn (withoutSlash tag.attributes)
    let body? :=
      if closesItself tag.attributes || tag.rest.isEmpty then none else splitAtClose? tag.name 0 0 tag.rest
    match body? with
    | none => .ok (some (⟨tag.name, attributes, [], true⟩, tag.rest))
    | some (inside, after) => do
      let children ← readInside inside
      return some (⟨tag.name, attributes, children, false⟩, after)

/-- Reads sibling nodes, with at most `fuel` nodes on any path of following and nested ones. -/
def readNodesWithin : (fuel : Nat) → Text → Except ReadError (List Node)
  | 0, _ => .ok []
  | fuel + 1, s =>
    match Text.trimStart s with
    | [] => .ok []
    | c :: rest => do
      if c == '<' then
        match ← readElement? (readNodesWithin fuel) (c :: rest) with
        | none => throw (.unexpected ((c :: rest).take 24))
        | some (element, after) => return element.toNode :: (← readNodesWithin fuel after)
      else
        let content := (c :: rest).takeWhile (· != '<')
        return .text (Text.trimEnd content) :: (← readNodesWithin fuel ((c :: rest).dropWhile (· != '<')))

/-- Reads the nodes of a region: elements, and runs of text without the blanks around them. Every node takes at least
one character, so the region's length bounds the reading. -/
def readNodes (s : Text) : Except ReadError (List Node) :=
  readNodesWithin (s.length + 1) s

/-- Reads the root element of a markup text. What follows the root is left alone. -/
def readRoot (s : Text) : Except ReadError Element := do
  match ← readElement? readNodes (Text.trim s) with
  | some (element, _) => return element
  | none => throw .noRootElement

end IconRegistry.Markup
