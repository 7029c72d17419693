import IconRegistry.Proofs.Command.Removing
import IconRegistry.Proofs.Component.StableName

/-! Icons that are to be removed may be given by the names of their components. -/
namespace IconRegistry.Command

open Config Component

def componentsOf (outcomes : List Outcome) : List Text :=
  outcomes.map fun outcome => nameOf outcome.icon

def removeComponents (editor : Registry.Editor) (settings : Settings) (names : List Text) : Command (List Text) := do
  match settings.placement with
  | .inline => removeInline editor settings names
  | .standalone => removeFiles settings names
  return names

/-- What is removed, and which components are reported, depends on the components only. -/
theorem componentsOf_remove (editor : Registry.Editor) (settings : Settings) (icons : List Text) :
    componentsOf <$> remove editor settings icons = removeComponents editor settings (mentioned icons) := by
  have hReported : componentsOf ((distinctIcons [] icons).map .removed) = mentioned icons := by
    rw [componentsOf, List.map_map, ← map_nameOf_distinctIcons]
    rfl
  rw [remove, removeComponents, map_nameOf_distinctIcons]
  cases settings.placement with
  | inline => simp only [map_bind, map_pure, hReported]
  | standalone => simp only [map_bind, map_pure, hReported]

/-- Icons with the same component are the same mention. -/
theorem mentioned_of_nameOf {icon other : Text} (h : nameOf icon = nameOf other) (before after : List Text) :
    mentioned (before ++ icon :: after) = mentioned (before ++ other :: after) := by
  simp only [mentioned, List.map_append, List.map_cons, h]

/-- Names of parts joined by a separator are joined names. A component name has no separator, begins with no digit and
is the name of itself, so removing it is removing its component, whatever icons are removed besides. -/
theorem nameOf_stable (s t : Text) {c : Char} (hc : c ∈ "-_ :/.".toList) :
    pascalCase (s ++ c :: t) = pascalCase s ++ pascalCase t ∧
      (∀ d ∈ "-_ :/.".toList, d ∉ nameOf s) ∧
      (∀ d ∈ (nameOf s).head?, d.isDigit = false) ∧
      nameOf (nameOf s) = nameOf s ∧
      ∀ (editor : Registry.Editor) (settings : Settings) (before after : List Text),
        componentsOf <$> remove editor settings (before ++ nameOf s :: after) =
          componentsOf <$> remove editor settings (before ++ s :: after) := by
  refine ⟨pascalCase_append (isNameSeparator_iff.mpr hc) s t, fun d hd hMember => ?_,
    fun d hd => (of_mem_nameOf_head? hd).2, nameOf_nameOf s, fun editor settings before after => ?_⟩
  · have hNone := isNameSeparator_of_mem_nameOf hMember
    rw [isNameSeparator_iff.mpr hd] at hNone
    cases hNone
  · rw [componentsOf_remove, componentsOf_remove, mentioned_of_nameOf (nameOf_nameOf s)]

/-- A name that begins with a digit, and a part whose upper case is longer than itself. -/
theorem nameOf_stable_digit :
    '/' ∈ "-_ :/.".toList ∧ pascalCase "2x/ßt".toList = "2xSSt".toList ∧ nameOf "2x".toList = "Icon2x".toList ∧
      nameOf "Icon2x".toList = "Icon2x".toList := by
  have hParts : pascalCase "2x".toList ++ pascalCase "ßt".toList = "2xSSt".toList := by decide +kernel
  have hName : nameOf "2x".toList = "Icon2x".toList := by decide +kernel
  obtain ⟨hJoined, -, -, hFixed, -⟩ := nameOf_stable "2x".toList "ßt".toList (c := '/') (by decide)
  rw [hName] at hFixed
  exact ⟨by decide, hJoined.trans hParts, hName, hFixed⟩

end IconRegistry.Command
