import IconRegistry.Component.Annotated
import IconRegistry.Component.CallTree
import IconRegistry.Component.SourceFile

/-!
The frameworks that components are written for. React, Preact and Solid take JSX made from annotated markup; Vue takes
constructor calls made from an annotated tree.
-/

namespace IconRegistry

open Component Markup

/-- A target framework. -/
inductive Framework
  | react
  | preact
  | solid
  | vue
  deriving DecidableEq, Repr

namespace Framework

def name : Framework → Text
  | react => "react".toList
  | preact => "preact".toList
  | solid => "solid".toList
  | vue => "vue".toList

/-- The extension of the files written for a framework. -/
def extension (framework : Framework) (typescript : Bool) : Text :=
  match framework, typescript with
  | vue, true => "ts".toList
  | vue, false => "js".toList
  | _, true => "tsx".toList
  | _, false => "jsx".toList

/-- The module that exports the ref-forwarding constructor, for frameworks that have one. -/
def refModule? : Framework → Option Text
  | react => some "react".toList
  | preact => some "preact/compat".toList
  | solid | vue => none

/-- Whether a framework has a ref-forwarding constructor. -/
def supportsRef (framework : Framework) : Bool :=
  framework.refModule?.isSome

/-- The ref-forwarding constructor of the frameworks that have one. -/
def refConstructor : Text :=
  "forwardRef".toList

def callConstructor : Text :=
  "h".toList

def propsType : Framework → Text
  | react => "SVGProps<SVGSVGElement>".toList
  | preact => "JSX.SVGAttributes<SVGSVGElement>".toList
  | solid => "JSX.SvgSVGAttributes<SVGSVGElement>".toList
  | vue => "SVGAttributes".toList

def valueImport (name source : Text) : Text :=
  "import \x7b ".toList ++ name ++ " \x7d from \"".toList ++ source ++ "\";".toList

def typeImport (name source : Text) : Text :=
  "import type \x7b ".toList ++ name ++ " \x7d from \"".toList ++ source ++ "\";".toList

/-- The import that brings the properties' type into scope. -/
def propsImport : Framework → Text
  | react => typeImport "SVGProps".toList "react".toList
  | preact => typeImport "JSX".toList "preact".toList
  | solid => typeImport "JSX".toList "solid-js".toList
  | vue => typeImport "SVGAttributes".toList "vue".toList

/-- The imports of the constructors that components call. -/
def constructorImports (framework : Framework) (forwardRef : Bool) : List Text :=
  match framework with
  | vue => [valueImport callConstructor "vue".toList]
  | _ =>
    match framework.refModule? with
    | some source => if forwardRef then [valueImport refConstructor source] else []
    | none => []

/-- The import lines of a file written for a framework. -/
def imports (framework : Framework) (typescript forwardRef : Bool) : List Text :=
  framework.constructorImports forwardRef ++ if typescript then [framework.propsImport] else []

/-- The parameter list of a component that takes its properties alone. -/
def params (framework : Framework) (typescript : Bool) : Text :=
  if typescript then "props: ".toList ++ framework.propsType else "props".toList

/-- The identifier that components spread last on their root. -/
def propsName : Text :=
  "props".toList

/-- The element tree that a JSX framework renders for an icon. -/
def annotatedRoot (optimize : Optimizer) (spec : Spec) (markup : Text) : Except TransformError Element := do
  let text ← annotated optimize spec markup
  match readRoot text with
  | .error cause => throw (.ofReadError spec.label cause)
  | .ok root => if root.tag == "svg".toList then return root else throw (.missingRoot spec.label)

/-- The call tree that Vue renders for an icon. -/
def annotatedCallTree (optimize : Optimizer) (spec : Spec) (markup : Text) : Except TransformError CallTree := do
  let optimized ← optimize markup
  match CallTree.ofMarkup optimized with
  | .error cause => throw (.ofReadError spec.label cause)
  | .ok tree =>
    if tree.root.tag == "svg".toList then
      let attributed : CallTree := { tree.mergeAttributes spec.extraAttributes with spread? := some propsName }
      return match spec.titleText? with
        | some title => attributed.prependTitle title
        | none => attributed
    else throw (.missingRoot spec.label)

/-- Whether a component of this spec is wrapped in the framework's ref-forwarding constructor. -/
def wrapsRef (framework : Framework) (spec : Spec) : Bool :=
  spec.forwardRef && framework.supportsRef

def attributeCase : Framework → AttributeCase
  | solid => .kebab
  | _ => .camel

/-- What a component returns for its properties: JSX in parentheses, or a constructor call. -/
def body (framework : Framework) (optimize : Optimizer) (spec : Spec) (markup : Text) :
    Except TransformError Text := do
  match framework with
  | vue => return (← annotatedCallTree optimize spec markup).emit callConstructor
  | _ =>
    let root ← annotatedRoot optimize spec markup
    let props : RootProps := ⟨if framework.wrapsRef spec then some "ref".toList else none, some propsName⟩
    return ['('] ++ renderJsx framework.attributeCase props root ++ [')']

/-- A component as an arrow function, or as one that the ref-forwarding constructor wraps. -/
def arrow (framework : Framework) (spec : Spec) (typescript : Bool) (body : Text) : Text :=
  if framework.wrapsRef spec then
    refConstructor ++
      (if typescript then "<SVGSVGElement, ".toList ++ framework.propsType ++ ">".toList else []) ++
      "((props, ref) => ".toList ++ body ++ ")".toList
  else ['('] ++ framework.params typescript ++ ") => ".toList ++ body

/-- The declaration that exports a component from a file of its own. -/
def declaration (framework : Framework) (spec : Spec) (typescript : Bool) (body : Text) : Text :=
  match framework with
  | solid =>
    "export function ".toList ++ spec.componentName ++ ['('] ++ framework.params typescript ++
      ") \x7b\n  return ".toList ++ body ++ ";\n\x7d".toList
  | _ =>
    "export const ".toList ++ spec.componentName ++ " = ".toList ++ framework.arrow spec typescript body ++
      ";".toList

/-- The source of the component that an icon's markup becomes: a property of the registry object, or a whole file. -/
def transform (framework : Framework) (optimize : Optimizer) (spec : Spec) (typescript : Bool) (markup : Text) :
    Except TransformError Text := do
  let body ← framework.body optimize spec markup
  return match spec.placement with
    | .inline => spec.componentName ++ ": ".toList ++ framework.arrow spec typescript body
    | .standalone =>
      componentFile (framework.imports typescript (framework.wrapsRef spec)) spec.componentName
        (framework.declaration spec typescript body)

/-- What a verbose run reports about a transformation. -/
def transformNotes (framework : Framework) (optimize : Optimizer) (spec : Spec) (markup : Text) : List Text :=
  match framework with
  | vue => []
  | _ =>
    match annotated optimize spec markup with
    | .error _ => []
    | .ok _ =>
      annotatedNote spec ::
        if framework != solid && (annotatedRoot optimize spec markup).isOk then
          ["transformed ".toList ++ spec.componentName ++ " for ".toList ++ framework.name]
        else []

/-- The file of an empty registry for a framework. -/
def registryTemplate (framework : Framework) (collection : Text) (typescript forwardRef : Bool) : Text :=
  emptyRegistry (framework.imports typescript forwardRef) collection typescript

end Framework

end IconRegistry
