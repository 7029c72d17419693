import IconRegistry.Registry.NameOrder
import IconRegistry.Registry.View

/-!
Edits of a registry. An edit replaces one piece of the text and keeps every other character, so the layout that a
person gave a file stays as it is. A view says which edit inserts, replaces or removes a property.
-/

namespace IconRegistry.Registry

/-- The replacement of the characters from `start` up to `stop`. -/
structure Edit where
  start : Nat
  stop : Nat
  text : Text
  deriving DecidableEq, Repr

namespace Edit

def apply (edit : Edit) (source : Text) : Text :=
  source.take edit.start ++ edit.text ++ source.drop edit.stop

def insertAt (position : Nat) (text : Text) : Edit :=
  ⟨position, position, text⟩

end Edit

/-- What separates properties where one of them starts at `position`: a comma, and the line break and indentation in
front of that property. A property that does not begin its line is separated by a comma and a space. -/
def separatorBefore (source : Text) (position : Nat) : Text :=
  let before := source.take position
  let indent := (before.reverse.takeWhile (· != '\n')).reverse
  if indent.all Text.isBlank && before.contains '\n' then ',' :: '\n' :: indent else ", ".toList

/-- The insertion of a component into a collection without entries. Where only blanks are between the braces, they
give way; anything else there is kept behind the component. -/
def insertionIntoEmpty (source : Text) (interior : Span) (component : Text) : Edit :=
  let line := "\n  ".toList ++ component ++ [',']
  if (interior.textIn source).all Text.isBlank then ⟨interior.start, interior.stop, line ++ ['\n']⟩
  else Edit.insertAt interior.start line

namespace View

/-- The first entry that comes after `name` in the order of names. -/
def following? (view : View) (name : Text) : Option Entry :=
  view.entries.find? fun e => compareNames e.name name == .gt

/-- The edit that inserts a component in front of the first entry with a greater name, or else behind the last entry;
nothing if there is no collection. -/
def insertion? (view : View) (name component : Text) : Option Edit :=
  view.interior?.map fun interior =>
    match view.entries.getLast?, view.following? name with
    | none, _ => insertionIntoEmpty view.source interior component
    | _, some next => Edit.insertAt next.span.start (component ++ separatorBefore view.source next.span.start)
    | some last, none => Edit.insertAt last.span.stop (separatorBefore view.source last.span.start ++ component)

/-- The edit that puts a component in the place of the entry with a name. -/
def replacement? (view : View) (name component : Text) : Option Edit :=
  (view.find? name).map fun entry => ⟨entry.span.start, entry.span.stop, component⟩

/-- The removal of a property that is the only one: with the blanks around it and one comma behind it. -/
def soleRemoval (source : Text) (interior entry : Span) : Edit :=
  let before := Span.textIn ⟨interior.start, entry.start⟩ source
  let after := Text.trimStart (Span.textIn ⟨entry.stop, interior.stop⟩ source)
  let kept := Text.trimStart ((Text.dropFront? [','] after).getD after)
  ⟨interior.start + (Text.trimEnd before).length, interior.stop - kept.length, []⟩

/-- The removal of a property that is the last of several: with all that follows the comma behind the one before it,
that comma included. -/
def lastRemoval (source : Text) (previous entry : Span) : Edit :=
  let between := Span.textIn ⟨previous.stop, entry.start⟩ source
  ⟨previous.stop + (if between.contains ',' then between.idxOf ',' else 0), entry.stop, []⟩

/-- The edit that removes the entry with a name, together with what separates it from its neighbour. -/
def removal? (view : View) (name : Text) : Option Edit := do
  let entry ← view.find? name
  let interior ← view.interior?
  match view.properties[entry.property + 1]? with
  | some next => return ⟨entry.span.start, next.start, []⟩
  | none =>
    match entry.property with
    | 0 => return soleRemoval view.source interior entry.span
    | before + 1 =>
      let previous ← view.properties[before]?
      return lastRemoval view.source previous entry.span

/-- The edit that imports a value: on a line of its own behind the last import, or in front of the first statement. -/
def importInsertion (view : View) (name module : Text) : Edit :=
  let line := "import \x7b ".toList ++ name ++ " \x7d from \"".toList ++ module ++ "\";".toList
  match view.imports.getLast? with
  | some last => Edit.insertAt last.stop ('\n' :: line)
  | none => Edit.insertAt view.bodyStart (line ++ "\n\n".toList)

end View

end IconRegistry.Registry
