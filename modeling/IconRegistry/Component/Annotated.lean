import IconRegistry.Component.Failure
import IconRegistry.Component.Spec
import IconRegistry.Markup.Canonical
import IconRegistry.Markup.Entity

/-!
Annotated markup: the canonical text of an icon with the attributes and the title that its spec asks for written into
the root's opening tag and right behind it. Nothing behind the opening tag is touched.
-/

namespace IconRegistry.Component

open Markup

/-- A way to bring markup into the layout that annotation works on. -/
abbrev Optimizer := Text → Except TransformError Text

/-- The optimizer that gives the canonical layout and refuses markup with nothing in it. -/
def canonicalOptimizer : Optimizer := fun markup =>
  let out := canonical markup
  if out.isEmpty then .error .emptyMarkup else .ok out

/-- The opening tag `svg` at the front of a text. -/
def rootTag? (markup : Text) : Option NamedTag :=
  (NamedTag.read? "svg".toList markup).filter fun tag => !tag.closing

/-- Attributes as they are written in a tag, each behind a space. -/
def writtenAttributes (attributes : Attributes) : Text :=
  (attributes.map fun (key, value) => ' ' :: key ++ "=\"".toList ++ value ++ ['"']).flatten

/-- The markup with extra attributes merged into its root's opening tag. -/
def withAttributes (extras : Attributes) (markup : Text) : Text :=
  match rootTag? markup with
  | none => markup
  | some tag =>
    let attributes := attributesIn (withoutSlash tag.attributes)
    let merged := attributes.merge (extras.map fun (key, value) => (key, escapeAttribute value))
    "<svg".toList ++ writtenAttributes merged ++
      (if closesItself tag.attributes then "/>".toList else ">".toList) ++ tag.rest

/-- The markup with a title as the first child of its root. A root without a body gets one. -/
def withTitle (title : Text) (markup : Text) : Text :=
  match rootTag? markup with
  | none => markup
  | some tag =>
    let opening := markup.take (markup.length - tag.rest.length)
    let element := "<title>".toList ++ escapeText title ++ "</title>".toList
    if Text.endsWith opening "/>".toList then
      Text.trimEnd opening.dropLast.dropLast ++ ">".toList ++ element ++ "</svg>".toList ++ tag.rest
    else opening ++ element ++ tag.rest

/-- The optimized markup of an icon with what its spec asks for written into it. -/
def annotated (optimize : Optimizer) (spec : Spec) (markup : Text) : Except TransformError Text := do
  let optimized ← optimize markup
  if (rootTag? optimized).isNone then throw (.missingRoot spec.label)
  let extras := spec.extraAttributes
  let attributed := if extras.isEmpty then optimized else withAttributes extras optimized
  return match spec.titleText? with
    | some title => withTitle title attributed
    | none => attributed

/-- What a verbose run reports when an icon's markup has been annotated. -/
def annotatedNote (spec : Spec) : Text :=
  "normalized ".toList ++ spec.label ++ " with ".toList ++ Text.ofNat spec.extraAttributes.length ++
    " extra attributes".toList

end IconRegistry.Component
