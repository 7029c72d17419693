import IconRegistry.Markup.Reader

/-!
Why an icon could not be made into a component.
-/

namespace IconRegistry.Component

/-- The causes of a failed transformation. -/
inductive TransformError
  | missingRoot (icon : Text)
  | markup (cause : Markup.ReadError)
  | emptyMarkup
  | unknownFramework (name : Text)
  deriving DecidableEq

namespace TransformError

def message : TransformError → Text
  | missingRoot icon => "No root <svg> element found in icon `".toList ++ icon ++ "`".toList
  | markup cause => "Malformed markup: ".toList ++ cause.message
  | emptyMarkup => "Optimize error: markup is empty".toList
  | unknownFramework name => "Unknown framework: ".toList ++ name

/-- A read error as the failure of the icon called `icon`. -/
def ofReadError (icon : Text) : Markup.ReadError → TransformError
  | .noRootElement => missingRoot icon
  | cause => markup cause

end TransformError

end IconRegistry.Component
