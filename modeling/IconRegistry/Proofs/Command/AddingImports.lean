import IconRegistry.Proofs.Command.AddingKeeps

/-! Which constructors a registry imports after a run that adds icons. A run makes sure of the ref-forwarding
constructor behind every entry that it writes. It never makes sure of the constructor of calls. -/
namespace IconRegistry

open Component Registry Config

namespace Framework

/-- The constructors that components call, each with the module that exports it. -/
def constructors (framework : Framework) (forwardRef : Bool) : List (Text × Text) :=
  match framework with
  | vue => [(callConstructor, "vue".toList)]
  | _ => if forwardRef then (framework.refModule?.map (refConstructor, ·)).toList else []

/-- A component calls a constructor, with type arguments or without. -/
def Calls (constructor component : Text) : Prop :=
  ∃ front types back, component = front ++ constructor ++ types ++ '(' :: back ∧
    (types = [] ∨ ∃ inside, types = '<' :: (inside ++ ['>']))

/-- A component that forwards its reference calls what forwards it. -/
theorem calls_arrow (framework : Framework) (spec : Spec) (typescript : Bool) (body : Text)
    (h : framework.wrapsRef spec = true) : Calls refConstructor (framework.arrow spec typescript body) := by
  rw [arrow, if_pos h]
  cases typescript with
  | false => exact ⟨[], [], "(props, ref) => ".toList ++ body ++ ")".toList, by simp, .inl rfl⟩
  | true =>
      exact ⟨[], "<SVGSVGElement, ".toList ++ framework.propsType ++ ">".toList,
        "(props, ref) => ".toList ++ body ++ ")".toList, by simp,
        .inr ⟨"SVGSVGElement, ".toList ++ framework.propsType, by simp⟩⟩

/-- A tree that is written as calls calls their constructor. -/
theorem calls_emit (tree : CallTree) : Calls callConstructor (tree.emit callConstructor) :=
  ⟨[], [], _, by simp only [CallTree.emit, constructorCall, List.append_assoc]; rfl, .inl rfl⟩

theorem Calls.append {constructor component : Text} (h : Calls constructor component) (front : Text) :
    Calls constructor (front ++ component) := by
  obtain ⟨between, types, back, rfl, hTypes⟩ := h
  exact ⟨front ++ between, types, back, by simp, hTypes⟩

/-- The components of a registry call all of these constructors. -/
theorem calls_of_transform {framework : Framework} {optimize : Optimizer} {spec : Spec} {typescript : Bool}
    {markup component : Text} (hInline : spec.placement = .inline)
    (h : framework.transform optimize spec typescript markup = .ok component) :
    ∀ c ∈ framework.constructors spec.forwardRef, Calls c.1 component := by
  intro c hc
  obtain ⟨body, hBody, hMade⟩ := bind_eq_ok.mp h
  rw [hInline] at hMade
  cases hMade
  apply Calls.append
  by_cases hVue : framework = .vue
  · subst hVue
    obtain rfl : c = (callConstructor, "vue".toList) := by simpa [constructors] using hc
    obtain ⟨tree, -, hEmit⟩ := bind_eq_ok.mp hBody
    cases hEmit
    have hPlain : wrapsRef .vue spec = false := by simp [wrapsRef, supportsRef, refModule?]
    rw [arrow, if_neg (by simp [hPlain])]
    exact (calls_emit tree).append _
  · have hRef : framework.constructors spec.forwardRef =
        if spec.forwardRef then (framework.refModule?.map (refConstructor, ·)).toList else [] := by
      cases framework <;> first | rfl | exact absurd rfl hVue
    rw [hRef] at hc
    split at hc
    · rename_i hForward
      obtain ⟨module, hModule, rfl⟩ := Option.map_eq_some_iff.mp (Option.mem_toList.mp hc)
      exact calls_arrow framework spec typescript body (by simp [wrapsRef, supportsRef, hForward, hModule])
    · exact absurd hc List.not_mem_nil

end Framework

namespace Registry

/-- A viewed registry imports all constructors that components call. -/
def View.ImportsConstructors (view : View) (framework : Framework) (forwardRef : Bool) : Prop :=
  ∀ c ∈ framework.constructors forwardRef, view.importsValue c.1 c.2 = true

end Registry

namespace Command

section

variable {editor : Editor} {grammar : Grammar} {settings : Settings} {framework : Framework} {mode : AddMode}
  {files : Store} {text result icon : Text} {view changed : View} {outcome : Outcome}

/-- The component of an icon calls all constructors of its framework. -/
theorem calls_of_componentOf {component : Text} (hInline : settings.placement = .inline)
    (h : componentOf settings framework files icon = .ok component) :
    ∀ c ∈ framework.constructors settings.forwardRef, Framework.Calls c.1 component := by
  rw [componentOf] at h
  split at h
  · cases h
  · split at h
    · cases h
    · rename_i hMade
      cases h
      exact Framework.calls_of_transform hInline hMade

/-- A step that writes nothing leaves the registry as it was. -/
theorem EntryStep.eq_of_none_written (step : EntryStep editor settings framework mode files text icon result outcome)
    (h : outcome.written? = none) : result = text := by
  cases step with
  | skipped | failed => rfl
  | replaced | added => cases h

/-- Where no entry is written, the text stays. -/
theorem EntrySteps.eq_of_none_written {icons : List Text} {outcomes : List Outcome}
    (steps : EntrySteps editor settings framework mode files text icons result outcomes)
    (hNone : writtenIcons outcomes = []) : result = text := by
  induction steps with
  | nil => rfl
  | cons step rest ih =>
      rw [writtenIcons_cons, List.append_eq_nil_iff, Option.toList_eq_nil_iff] at hNone
      exact (ih hNone.2).trans (step.eq_of_none_written hNone.1)

/-- Where components are no calls, the constructors are those that are made sure of. -/
theorem importsConstructors_of_called (hVue : framework ≠ .vue)
    (h : ∀ module, CallsConstructor settings framework module →
      view.importsValue Framework.refConstructor module = true) :
    view.ImportsConstructors framework settings.forwardRef := by
  intro c hc
  obtain ⟨hForward, module, hModule, rfl⟩ : settings.forwardRef = true ∧
      ∃ module, framework.refModule? = some module ∧ (Framework.refConstructor, module) = c := by
    cases framework <;> simp_all [Framework.constructors]
  exact h module ⟨hForward, hModule⟩

/-- After a run that succeeds and writes an entry under names of scripts, from element trees that are written with names
only, the constructors that the components call are imported wherever the registry can be read, for every framework but
the one whose components are nested calls. The registry can be read and imports them if and only if, for that framework,
they were imported before, and, for the others, an import has a place where one is needed. -/
theorem add_imports_constructors_iff {pieces : Pieces} (composes : pieces.Composes grammar)
    {w w' : Workspace} {before : Text} {icons : List Text} {outcomes : List Outcome}
    (hInline : settings.placement = .inline)
    (hFramework : Framework.Catalogue.builtin.get settings.framework = .ok framework)
    (hRead : w.store.readText settings.registryPath = .ok before)
    (hView : editor.view before = .ok view) (accepts : AdmitsComponents editor grammar settings framework view)
    (hRun : (add editor settings icons mode).Gives w outcomes w') (hWrites : writtenIcons outcomes ≠ []) :
    ∃ after, w'.store.readText settings.registryPath = .ok after ∧
      (∀ icon ∈ writtenIcons outcomes, ∀ component, componentOf settings framework w.store icon = .ok component →
        ∀ c ∈ framework.constructors settings.forwardRef, Framework.Calls c.1 component) ∧
      ((∀ name ∈ addedNames outcomes, Script.IsIdentifier name) →
        NamesTrees pieces settings framework w.store (writtenIcons outcomes) →
        (framework ≠ .vue → ∀ changed, editor.view after = .ok changed →
          changed.ImportsConstructors framework settings.forwardRef) ∧
        ((∃ changed, editor.view after = .ok changed ∧
            changed.ImportsConstructors framework settings.forwardRef) ↔
          (framework = .vue → view.ImportsConstructors framework settings.forwardRef) ∧
            HasPlace editor settings framework view)) := by
  obtain ⟨after, hAfter, hSteps⟩ := exists_entrySteps hInline hFramework hRead hRun
  refine ⟨after, hAfter, fun _ _ _ hComponent => calls_of_componentOf hInline hComponent, ?_⟩
  intro hNames hTrees
  have hComponents := makesProperties_of_names composes hInline hTrees
  have hLeft : HasPlace editor settings framework view →
      ∃ changed, LeftBehind editor settings framework view outcomes after changed :=
    fun hPlace => hSteps.exists_leftBehind accepts hView hComponents hNames fun _ => hPlace
  have hBehind : ∀ changed, editor.view after = .ok changed → HasPlace editor settings framework view :=
    fun changed hChanged => hSteps.hasPlace accepts hView hComponents hNames hChanged hWrites
  have hOther : framework ≠ .vue → ∀ changed, editor.view after = .ok changed →
      changed.ImportsConstructors framework settings.forwardRef := by
    intro hVue changed hChanged
    obtain ⟨last, hLast⟩ := hLeft (hBehind changed hChanged)
    cases hChanged.symm.trans hLast.viewed
    exact importsConstructors_of_called hVue fun module hCalls => hLast.imported module hCalls (.inl hWrites)
  -- the constructor of calls is imported afterwards where it was before
  have hCalls : framework = .vue → ∀ changed, LeftBehind editor settings framework view outcomes after changed →
      (changed.ImportsConstructors framework settings.forwardRef ↔
        view.ImportsConstructors framework settings.forwardRef) := by
    rintro rfl changed hChanged
    simp only [View.ImportsConstructors, View.importsValue_iff, hChanged.imports rfl]
  refine ⟨hOther, ?_, ?_⟩
  · rintro ⟨changed, hChanged, hImports⟩
    have hPlace := hBehind changed hChanged
    obtain ⟨last, hLast⟩ := hLeft hPlace
    cases hChanged.symm.trans hLast.viewed
    exact ⟨fun hVue => (hCalls hVue changed hLast).mp hImports, hPlace⟩
  · rintro ⟨hBefore, hPlace⟩
    obtain ⟨changed, hChanged⟩ := hLeft hPlace
    refine ⟨changed, hChanged.viewed, ?_⟩
    by_cases hVue : framework = .vue
    · exact (hCalls hVue changed hChanged).mpr (hBefore hVue)
    · exact hOther hVue changed hChanged.viewed

/-- A component that forwards its reference, added to a registry with an import and an entry. -/
theorem add_imports_call :
    let settings : Settings := { forwardRef := true }
    let before := "import \x7b clsx \x7d from \"clsx\";\n\nexport const Icons = \x7b\n  Bell: \"bell\",\n\x7d;\n".toList
    let w : Workspace := ⟨⟨[], [(["src".toList], .directory), (["src".toList, "icons.tsx".toList], .file before),
      (["icons".toList], .directory),
      (["icons".toList, "home.svg".toList], .file "<svg viewBox=\"0 0 1 1\"/>".toList)]⟩, []⟩
    ∃ w' after changed, (add settings.editor settings ["home".toList] .add).Gives w [.added "home".toList] w' ∧
      w'.store.readText settings.registryPath = .ok after ∧ settings.editor.view after = .ok changed ∧
      changed.ImportsConstructors .react settings.forwardRef := by
  intro settings before w
  let command := add settings.editor settings ["home".toList] .add
  have hRun : command.Gives w [.added "home".toList] (command.run.run w).2 := gives_of_result (by decide +kernel)
  let imports : List (Script.ImportLine × Text) := [(⟨false, "clsx".toList, "clsx".toList⟩, "\n\n".toList)]
  have hModule : IsModule [] imports "Icons".toList ['\n'] := by
    refine ⟨by decide, List.forall_mem_singleton.mpr ⟨⟨?_, fun _ => rfl⟩, by decide⟩,
      ⟨by decide, by decide, fun _ => by decide⟩, by decide⟩
    exact ⟨by decide, by decide, by decide, by decide⟩
  have hBell : Script.IsMember (some "Bell".toList) "Bell: \"bell\"".toList :=
    Script.isMember_word (by decide) (Script.isExpression_stringLiteral "bell".toList)
  have hText : (Framework.linedLayout "Bell".toList "Bell: \"bell\"".toList).between
      (frontOf [] imports "Icons".toList) (backOf false ['\n']) = before := by decide
  have hPath : (Script.Dialect.ofPath? settings.registryPath).getD .tsx = .tsx := by decide
  obtain ⟨view, hView, -, -, accepts, hPlace⟩ :=
    exists_view_module settings hModule hPath false (Framework.linedLayout_wellFormed hBell) .react
  rw [hText] at hView
  obtain ⟨after, hAfter, -, hImported⟩ := add_imports_constructors_iff readPieces_composes rfl rfl rfl hView accepts hRun
    (List.cons_ne_nil _ _)
  have hTrees : NamesTrees readPieces settings .react w.store ["home".toList] := namesTrees_of_isFrame (by decide +kernel)
  have hNames : ∀ name ∈ addedNames [.added "home".toList], Script.IsIdentifier name := by
    intro name hName
    obtain rfl : name = "Home".toList := List.mem_singleton.mp hName
    decide
  obtain ⟨changed, hChanged, hConstructors⟩ := (hImported hNames hTrees).2.mpr ⟨nofun, hPlace⟩
  exact ⟨_, after, changed, hRun, hAfter, hChanged, hConstructors⟩

end

/-- An entry calls the constructor of calls, and the registry does not import it. -/
theorem add_leaves_unimported :
    let settings : Settings := { framework := "vue".toList }
    let w : Workspace := ⟨⟨[], [(["src".toList], .directory),
      (["src".toList, "icons.tsx".toList], .file "export const Icons = \x7b\x7d as const;\n".toList),
      (["icons".toList], .directory), (["icons".toList, "home.svg".toList], .file "<svg/>".toList)]⟩, []⟩
    let text := "export const Icons = \x7b\n  Home: (props: SVGAttributes) => ".toList ++
      "h(\"svg\", \x7b \"aria-hidden\": \"true\", ...props \x7d),\n\x7d as const;\n".toList
    ∃ w' changed, (add settings.editor settings ["home".toList] .add).Gives w [.added "home".toList] w' ∧
      w'.store.readText settings.registryPath = .ok text ∧ settings.editor.view text = .ok changed ∧
      ¬changed.ImportsConstructors .vue settings.forwardRef := by
  intro settings w text
  let command := add settings.editor settings ["home".toList] .add
  have hAll : (command.run.run w).1.toOption = some [.added "home".toList] ∧
      ((command.run.run w).2.store.readText settings.registryPath).toOption = some text ∧
      (settings.editor.view text).toOption.map (·.importsValue "h".toList "vue".toList) = some false := by
    decide +kernel
  obtain ⟨changed, hChanged, hMissing⟩ := Option.map_eq_some_iff.mp hAll.2.2
  refine ⟨(command.run.run w).2, changed, gives_of_result hAll.1, eq_ok_of_toOption hAll.2.1,
    eq_ok_of_toOption hChanged, fun h => ?_⟩
  have hImported := h (Framework.callConstructor, "vue".toList) (List.mem_singleton.mpr rfl)
  exact absurd (hMissing.symm.trans hImported) (by decide)

end Command

end IconRegistry
