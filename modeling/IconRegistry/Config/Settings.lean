import IconRegistry.Component.Spec
import IconRegistry.Config.Toml.Document
import IconRegistry.Registry.Editor

/-!
Settings: where the registry and the icons are, and how icons are made into components. A configuration file sets
them, and a single run may override some.
-/

namespace IconRegistry.Config

open Component

/-- The settings of a run. The path of the registry is that of a file if components are placed inline, and that of a
directory otherwise. -/
structure Settings where
  registryPath : Text := "src/icons.tsx".toList
  collection : Text := "Icons".toList
  framework : Text := "react".toList
  placement : Placement := .inline
  typescript : Bool := true
  iconsDirectory : Text := "icons".toList
  accessibility : Accessibility := .hidden
  trackSource : Bool := false
  forwardRef : Bool := false

/-- Why settings could not be made out. -/
inductive SettingsError
  | malformed
  | unknownPlacement (name : Text)
  | unknownAccessibility (name : Text)
  deriving DecidableEq

/-- The wording of a settings error; for a malformed file it ends before the reasons. -/
def SettingsError.message : SettingsError → Text
  | malformed => "TOML parse error".toList
  | unknownPlacement name =>
    "Unknown output mode `".toList ++ name ++ "` (expected inline or standalone)".toList
  | unknownAccessibility name =>
    "Unknown a11y strategy `".toList ++ name ++ "` (expected hidden, img, title, presentation or none)".toList

structure Overrides where
  accessibility? : Option Text := none
  trackSource : Bool := false
  forwardRef : Bool := false

/-- A section of a configuration file: its items under a name, or by their place in a fixed order. -/
inductive Section
  | named (fields : Toml.Fields)
  | ordered (items : List Toml.Item)

/-- A section that is a table or an array; one that is not there is empty. -/
def Section.ofItem? : Option Toml.Item → Except SettingsError Section
  | none => .ok (.named [])
  | some (.table _ fields) => .ok (.named fields)
  | some (.array items) | some (.tables items) => .ok (.ordered items)
  | some _ => .error .malformed

def Section.item? (place : Nat) (name : String) : Section → Option Toml.Item
  | named fields => fields.lookup name.toList
  | ordered items => items[place]?

/-- The text in a section, or a default if there is none. -/
def Section.text (place : Nat) (name fallback : String) (s : Section) : Except SettingsError Text :=
  match s.item? place name with
  | none => .ok fallback.toList
  | some (.text value) => .ok value
  | some _ => .error .malformed

/-- The truth value in a section, or a default if there is none. -/
def Section.boolean (place : Nat) (name : String) (fallback : Bool) (s : Section) : Except SettingsError Bool :=
  match s.item? place name with
  | none => .ok fallback
  | some (.boolean value) => .ok value
  | some _ => .error .malformed

def placementOf (name : Text) : Except SettingsError Placement :=
  match Placement.ofName? name with
  | some placement => .ok placement
  | none => .error (.unknownPlacement name)

def accessibilityOf (name : Text) : Except SettingsError Accessibility :=
  match Accessibility.ofName? name with
  | some accessibility => .ok accessibility
  | none => .error (.unknownAccessibility name)

namespace Settings

/-- The settings of a configuration file. Its form is checked as a whole before any name in it is. -/
def read (s : Text) : Except SettingsError Settings := do
  let fields ← match Toml.read? s with
    | some fields => pure fields
    | none => throw SettingsError.malformed
  let registry ← Section.ofItem? (fields.lookup "registry".toList)
  let icons ← Section.ofItem? (fields.lookup "icons".toList)
  let a11y ← Section.ofItem? (fields.lookup "a11y".toList)
  let registryPath ← registry.text 0 "path" "src/icons.tsx"
  let collection ← registry.text 1 "collection" "Icons"
  let framework ← registry.text 2 "framework" "react"
  let output ← registry.text 3 "output" "inline"
  let typescript ← registry.boolean 4 "typescript" true
  let iconsDirectory ← icons.text 0 "dir" "icons"
  let strategy ← a11y.text 0 "strategy" "hidden"
  let trackSource ← a11y.boolean 1 "track_source" false
  let forwardRef ← a11y.boolean 2 "forward_ref" false
  let placement ← placementOf output
  let accessibility ← accessibilityOf strategy
  return {
    registryPath, collection, framework := Text.toLower framework, placement, typescript, iconsDirectory,
    accessibility, trackSource, forwardRef }

def override (settings : Settings) (overrides : Overrides) : Except SettingsError Settings := do
  let accessibility ← match overrides.accessibility? with
    | some name => accessibilityOf name
    | none => pure settings.accessibility
  return { settings with
    accessibility
    trackSource := settings.trackSource || overrides.trackSource
    forwardRef := settings.forwardRef || overrides.forwardRef }

/-- What is asked of the component of an icon. -/
def spec (settings : Settings) (icon : Text) : Spec :=
  { componentName := nameOf icon
    iconName := icon
    accessibility := settings.accessibility
    trackSource := settings.trackSource
    forwardRef := settings.forwardRef
    placement := settings.placement }

def editor (settings : Settings) : Registry.Editor :=
  Registry.Editor.ofPath settings.collection settings.registryPath

end Settings

end IconRegistry.Config
