import IconRegistry.Component.Name
import IconRegistry.Markup.Element

/-!
What is asked of a component: its name, how assistive technology meets it, and where it is placed.
-/

namespace IconRegistry.Component

/-- How an icon is exposed to assistive technology. -/
inductive Accessibility
  | hidden
  | img
  | title
  | presentation
  | none
  deriving DecidableEq, Repr

/-- The strategy of a given name, in any letter case. -/
def Accessibility.ofName? (name : Text) : Option Accessibility :=
  let lower := Text.toLower name
  if lower == "hidden".toList then some .hidden
  else if lower == "img".toList then some .img
  else if lower == "title".toList then some .title
  else if lower == "presentation".toList then some .presentation
  else if lower == "none".toList then some .none
  else Option.none

/-- Where components live: as properties of one registry object, or each in a file of its own. -/
inductive Placement
  | inline
  | standalone
  deriving DecidableEq, Repr

/-- The placement of a given name, in any letter case. -/
def Placement.ofName? (name : Text) : Option Placement :=
  let lower := Text.toLower name
  if lower == "inline".toList then some .inline
  else if lower == "standalone".toList then some .standalone
  else none

/-- Everything needed to turn one icon into one component. -/
structure Spec where
  componentName : Text
  iconName : Text
  accessibility : Accessibility
  trackSource : Bool
  forwardRef : Bool
  placement : Placement

namespace Spec

/-- The name used for the icon in error messages. -/
def label (spec : Spec) : Text :=
  if spec.iconName.isEmpty then spec.componentName else spec.iconName

/-- The attributes that the root element gets, in order. -/
def extraAttributes (spec : Spec) : Markup.Attributes :=
  (match spec.accessibility with
    | .hidden => [("aria-hidden".toList, "true".toList)]
    | .img => [("role".toList, "img".toList), ("aria-label".toList, readableName spec.componentName)]
    | .presentation => [("role".toList, "presentation".toList)]
    | .title | .none => []) ++
  if spec.trackSource && !spec.iconName.isEmpty then [("data-icon".toList, spec.iconName)] else []

/-- The text of the title element that the root gets, when the strategy asks for one. -/
def titleText? (spec : Spec) : Option Text :=
  if spec.accessibility = .title then some (readableName spec.componentName) else none

end Spec

end IconRegistry.Component
