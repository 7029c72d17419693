import IconRegistry.Proofs.Command.AddingImports
import IconRegistry.Proofs.Command.Repeating
import IconRegistry.Proofs.Registry.Rewriting

/-! Batches over the registry file that are run again. A second run replaces texts of entries and makes sure of an import
that is there, so nothing but these texts changes on the way, and in the end they are what they were. -/
namespace IconRegistry

open Component Registry Config

namespace Command

/-- A text is like another one with a certain layout, but for components that are still to be written. -/
def LikeEntries (grammar : Grammar) (before : Text) (settled : Layout) (after : Text) (pending : Text → Option Text)
    (text : Text) : Prop :=
  ∃ layout : Layout, text = layout.between before after ∧ layout.front = settled.front ∧
    retext pending layout.properties = settled.properties ∧ layout.WellFormed grammar

/-- A text shows a registry that admits components, and the constructor that they call has a place. -/
def Hosts (editor : Editor) (grammar : Grammar) (settings : Settings) (framework : Framework) (text : Text) : Prop :=
  ∃ view, editor.view text = .ok view ∧ AdmitsComponents editor grammar settings framework view ∧
    HasPlace editor settings framework view

/-- A step from a text that shows such a registry. -/
def HostedStep (editor : Editor) (grammar : Grammar) (settings : Settings) (framework : Framework) (mode : AddMode)
    (files : Store) (text icon result : Text) (outcome : Outcome) : Prop :=
  EntryStep editor settings framework mode files text icon result outcome ∧ Hosts editor grammar settings framework text

section

variable {editor : Editor} {grammar : Grammar} {settings : Settings} {framework : Framework} {mode : AddMode}
  {files : Store} {text result icon : Text} {view changed : View} {icons : List Text} {outcome : Outcome}
  {outcomes : List Outcome} {w w' : Workspace}

/-- Where components are properties, what is written is one, under a name of scripts. -/
theorem EntryStep.properties (step : EntryStep editor settings framework mode files text icon result outcome)
    (hProperty : ∀ component, componentOf settings framework files icon = .ok component →
      grammar.property (some (nameOf icon)) component) :
    MakesProperties grammar settings framework files outcome.written?.toList ∧
      ∀ name ∈ outcome.addedName?, Script.IsIdentifier name := by
  cases step with
  | skipped | failed => exact ⟨by simp [MakesProperties, Outcome.written?], by simp [Outcome.addedName?]⟩
  | replaced _ _ _ hComponent =>
      exact ⟨by simpa [MakesProperties, Outcome.written?] using fun component h _ => hProperty component h,
        by simp [Outcome.addedName?]⟩
  | added _ _ _ hComponent =>
      exact ⟨by simpa [MakesProperties, Outcome.written?] using fun component h _ => hProperty component h,
        by simpa [Outcome.addedName?] using grammar.isIdentifier (hProperty _ hComponent)⟩

/-- A run writes properties and adds names of components. -/
theorem EntrySteps.properties (steps : EntrySteps editor settings framework mode files text icons result outcomes)
    (hProperty : ∀ icon ∈ icons, ∀ component, componentOf settings framework files icon = .ok component →
      grammar.property (some (nameOf icon)) component) :
    MakesProperties grammar settings framework files (writtenIcons outcomes) ∧
      ∀ name ∈ addedNames outcomes, Script.IsIdentifier name := by
  induction steps with
  | nil => exact ⟨by simp [MakesProperties, writtenIcons], by simp [addedNames]⟩
  | cons step _ ih =>
      obtain ⟨hHere, hRest⟩ := List.forall_mem_cons.mp hProperty
      obtain ⟨hFirst, hFirstNames⟩ := EntryStep.properties step hHere
      obtain ⟨hOthers, hOtherNames⟩ := ih hRest
      rw [writtenIcons_cons, makesProperties_append, addedNames_cons, List.forall_mem_append]
      exact ⟨⟨hFirst, hOthers⟩, by simpa using hFirstNames, hOtherNames⟩

/-- A run that writes something has found a collection. -/
theorem EntrySteps.found_of_written (steps : EntrySteps editor settings framework mode files text icons result outcomes)
    (hWrites : writtenIcons outcomes ≠ []) :
    ∃ view, editor.view text = .ok view ∧ view.interior?.isSome = true := by
  induction steps with
  | nil => exact absurd rfl hWrites
  | cons step rest ih =>
      cases step with
      | skipped | failed => exact ih hWrites
      | replaced hView _ hContains => exact ⟨_, hView, Editor.found_of_contains hView hContains⟩
      | added hView _ _ _ hInsert => exact ⟨_, hView, Editor.found_of_insert hView hInsert⟩

/-- A step that writes a component writes it under the name of its icon, and leaves all others. -/
theorem EntryStep.component?_cases (hosts : Hosts editor grammar settings framework text)
    (hProperty : ∀ component, componentOf settings framework files icon = .ok component →
      grammar.property (some (nameOf icon)) component)
    (step : EntryStep editor settings framework mode files text icon result outcome) :
    Hosts editor grammar settings framework result ∧
    ((result = text ∧ (mode.skipReason? (editor.component? text (nameOf icon)).isSome = none →
      (componentOf settings framework files icon).toOption = none)) ∨
    ∃ component, componentOf settings framework files icon = .ok component ∧
      mode.skipReason? (editor.component? text (nameOf icon)).isSome = none ∧
      editor.component? result (nameOf icon) = some component ∧
      ∀ other, nameOf icon ≠ other → editor.component? result other = editor.component? text other) := by
  obtain ⟨view, hView, accepts, hPlace⟩ := hosts
  obtain ⟨hComponents, hNames⟩ := step.properties hProperty
  rcases step.exists_writes accepts.admits hView hComponents hNames with
    ⟨hWritten, -, rfl⟩ | ⟨-, component, between, changed, hComponent, hSkip, writes, -, hImported⟩
  · refine ⟨⟨view, hView, accepts, hPlace⟩, .inl ⟨rfl, ?_⟩⟩
    rw [← Editor.contains_eq hView]
    cases step with
    | skipped hSame hSkip =>
        cases hView.symm.trans hSame
        simp [hSkip]
    | failed _ _ hComponent => exact fun _ => by rw [hComponent]; rfl
    | replaced | added => cases hWritten
  · obtain ⟨last, hLast, hItems, -, hAccepts, hThere, -⟩ :=
      hImported.exists_view (accepts.of_writes writes) writes.viewed ((accepts.hasPlace_iff hView writes).mpr hPlace)
    rw [Editor.contains_eq hView] at hSkip
    refine ⟨⟨last, hLast, hAccepts, hasPlace_of_imports hThere⟩,
      .inr ⟨component, hComponent, hSkip, ?_, fun other hOther => ?_⟩⟩
    · rw [Editor.component?_of_view hLast, hItems, writes.written]
    · rw [Editor.component?_of_view hLast, hItems, writes.others other hOther, Editor.component?_of_view hView]

/-- Steps over the text of the registry write components under names. -/
theorem tracks_entryStep
    (hProperty : ∀ icon ∈ icons, ∀ component, componentOf settings framework files icon = .ok component →
      grammar.property (some (nameOf icon)) component) :
    Tracks (HostedStep editor grammar settings framework mode files) mode
      (fun icon => (componentOf settings framework files icon).toOption)
      (fun text name => (editor.component? text name).isSome) editor.component? icons where
  kept := by
    rintro text icon result outcome ⟨step, hosts⟩ hIcon other - hRegistered
    rcases (step.component?_cases hosts (hProperty _ hIcon)).2 with
      ⟨rfl, -⟩ | ⟨component, -, -, hNew, hOthers⟩
    · exact hRegistered
    · by_cases hName : nameOf icon = nameOf other
      · rw [← hName, hNew]
        rfl
      · rwa [hOthers _ hName]
  closed hMode := by
    rintro text icon result outcome ⟨step, hosts⟩ hIcon other - hRegistered
    rcases (step.component?_cases hosts (hProperty _ hIcon)).2 with
      ⟨rfl, -⟩ | ⟨component, -, hSkip, -, hOthers⟩
    · exact hRegistered
    · by_cases hName : nameOf icon = nameOf other
      · rw [← hName]
        exact registered_of_skipReason? hMode hSkip
      · rwa [← hOthers _ hName]
  written := by
    rintro text icon result outcome component ⟨step, hosts⟩ hIcon hSkip hMade
    rcases (step.component?_cases hosts (hProperty _ hIcon)).2 with
      ⟨-, hNone⟩ | ⟨component, hComponent, -, hNew, -⟩
    · rw [hNone hSkip] at hMade
      cases hMade
    · rw [hComponent] at hMade
      obtain rfl := Option.some.inj hMade
      exact ⟨by rw [hNew]; rfl, hNew⟩
  held := by
    rintro text icon result outcome component ⟨step, hosts⟩ hIcon other - hHeld hNone
    rcases (step.component?_cases hosts (hProperty _ hIcon)).2 with
      ⟨rfl, -⟩ | ⟨component, hComponent, -, -, hOthers⟩
    · exact hHeld
    · rwa [hOthers]
      intro hName
      rw [hComponent] at hNone
      cases hNone hName

/-- Each text that is like a settled one can be read, and registers the same names. -/
theorem LikeEntries.exists_view {contents : List (Text × List Text × Bool)}
    {before after : Text} {settled : Layout} {pending : Text → Option Text}
    (takes : editor.Takes grammar before after contents) (hSettled : settled.WellFormed grammar)
    (h : LikeEntries grammar before settled after pending text) :
    ∃ view, editor.view text = .ok view ∧
      ∀ name, view.contains name = (editor.component? (settled.between before after) name).isSome := by
  obtain ⟨layout, rfl, -, hTexts, hLayout⟩ := h
  obtain ⟨view, hView, hShows, -⟩ := takes.exists_view hLayout
  obtain ⟨first, hFirst, hFirstShows, -⟩ := takes.exists_view hSettled
  refine ⟨view, hView, fun name => ?_⟩
  rw [← Editor.contains_eq hFirst, Bool.eq_iff_iff, View.contains_iff, View.contains_iff, hShows.names,
    hFirstShows.names, ← hTexts, namesOf_retext]

/-- From a settled text, a batch goes through texts that are like it. -/
theorem rewrites_entryStep {contents : List (Text × List Text × Bool)}
    {before after : Text} {settled : Layout} (takes : editor.Takes grammar before after contents)
    (hSettled : settled.WellFormed grammar)
    (hImports : ∀ module, CallsConstructor settings framework module →
      ImportsValue contents Framework.refConstructor module)
    (hProperty : ∀ icon ∈ icons, ∀ component, componentOf settings framework files icon = .ok component →
      grammar.property (some (nameOf icon)) component) :
    Rewrites (EntryStep editor settings framework mode files) mode
      (fun icon => (componentOf settings framework files icon).toOption)
      (fun name => (editor.component? (settled.between before after) name).isSome)
      (LikeEntries grammar before settled after) icons where
  skipped := by
    intro pending text icon reason hLike _ hSkip
    obtain ⟨view, hView, hContains⟩ := hLike.exists_view takes hSettled
    rw [← hContains] at hSkip
    exact .skipped hView hSkip
  failed := by
    intro pending text icon hLike _ hSkip hMade
    obtain ⟨view, hView, hContains⟩ := hLike.exists_view takes hSettled
    rw [← hContains] at hSkip
    cases hComponent : componentOf settings framework files icon with
    | error e => exact ⟨_, .failed hView hSkip hComponent, rfl⟩
    | ok component =>
        rw [hComponent] at hMade
        cases hMade
  replaced := by
    intro pending text icon component hLike hIcon hSkip hThere hMade
    obtain ⟨view, hView, hContains⟩ := hLike.exists_view takes hSettled
    rw [← hContains] at hSkip hThere
    obtain ⟨layout, rfl, hFront, hTexts, hLayout⟩ := hLike
    obtain ⟨same, hSame, hShows, -⟩ := takes.exists_view hLayout
    obtain rfl := Except.ok.inj (hView.symm.trans hSame)
    have hComponent := eq_ok_of_toOption hMade
    obtain ⟨other, hSameFront, hOther, hReplace, hOtherLayout⟩ := takes.exists_retext hLayout
      (hShows.names ▸ View.contains_iff.mp hThere) (hProperty icon hIcon component hComponent)
    refine ⟨_, .replaced hView hSkip hThere hComponent hReplace ?_, other, rfl, hSameFront.trans hFront, ?_,
      hOtherLayout⟩
    · obtain ⟨changed, hChanged, -, hContents⟩ := takes.exists_view hOtherLayout
      cases hModule : framework.refModule? with
      | none => exact .unneeded (.inl hModule)
      | some module =>
          cases hForward : settings.forwardRef with
          | false => exact .unneeded (.inr hForward)
          | true =>
              have hThere := View.importsValue_iff.mpr (hContents ▸ hImports module ⟨hForward, hModule⟩)
              exact .ensured hModule hForward (Editor.ensureImport_of_importsValue hChanged hThere)
    · rw [hOther, retext_retext]
      exact hTexts

/-- What is told of an icon whose component is not written. -/
theorem told_of_none_written
    (steps : EntrySteps editor settings framework mode files text icons result outcomes)
    (hNone : writtenIcons outcomes = []) :
    ∀ outcome ∈ outcomes, outcome.Repeated mode := by
  induction steps with
  | nil => simp
  | cons step _ ih =>
      rw [writtenIcons_cons, List.append_eq_nil_iff] at hNone
      refine List.forall_mem_cons.mpr ⟨?_, ih hNone.2⟩
      cases step with
      | skipped _ hSkip =>
          refine .inr (.inl ⟨?_, rfl⟩)
          rintro rfl
          cases hSkip
      | failed => exact .inl rfl
      | replaced | added => exact absurd hNone.1 (List.cons_ne_nil _ _)

/-- The text that steps lead to is one that they lead back to. -/
theorem exists_entrySteps_again
    (hHosts : writtenIcons outcomes ≠ [] → Hosts editor grammar settings framework text)
    (hProperty : ∀ icon ∈ icons, ∀ component, componentOf settings framework files icon = .ok component →
      grammar.property (some (nameOf icon)) component)
    (steps : EntrySteps editor settings framework mode files text icons result outcomes) :
    ∃ again, EntrySteps editor settings framework mode files result icons result again ∧
      ∀ outcome ∈ again, outcome.Repeated mode := by
  by_cases hNone : writtenIcons outcomes = []
  · have hSame := steps.eq_of_none_written hNone
    rw [← hSame] at steps
    exact ⟨outcomes, steps, told_of_none_written steps hNone⟩
  have tracks : Tracks (HostedStep editor grammar settings framework mode files) mode _ _ _ icons :=
    tracks_entryStep hProperty
  obtain ⟨hosted, hosts⟩ : Steps (HostedStep editor grammar settings framework mode files) text icons result outcomes ∧
      Hosts editor grammar settings framework result :=
    steps.holding (fun hIcon step hosts => (step.component?_cases hosts (hProperty _ hIcon)).1) (hHosts hNone)
  have settled := tracks.settled hosted
  obtain ⟨view, hView, accepts, -⟩ := hosts
  obtain ⟨before, layout, after, rfl, hLayout, hShows, takes⟩ := accepts.admits.exists_takes hView
  obtain ⟨first, hFirst, hFirstAccepts, hPlace⟩ := hHosts hNone
  obtain ⟨hComponents, hNames⟩ := steps.properties hProperty
  obtain ⟨last, hLast⟩ := steps.exists_leftBehind hFirstAccepts hFirst hComponents hNames fun _ => hPlace
  cases hView.symm.trans hLast.viewed
  have hImports : ∀ module, CallsConstructor settings framework module →
      ImportsValue (view.imports.map importContent) Framework.refConstructor module :=
    fun module hCalls => View.importsValue_iff.mp (hLast.imported module hCalls (.inl hNone))
  have hLike : LikeEntries grammar before layout after
      (lastWrite mode (fun name => (editor.component? (layout.between before after) name).isSome)
        (fun icon => (componentOf settings framework files icon).toOption) icons) (layout.between before after) := by
    refine ⟨layout, rfl, rfl, retext_eq_self fun name component hLast => ?_, hLayout⟩
    rw [← hShows.items, ← Editor.component?_of_view hView]
    exact settled.current name component hLast
  obtain ⟨final, again, hAgain, hFinal, hTold⟩ :=
    (rewrites_entryStep takes hLayout hImports hProperty).exists_steps settled.complete (fun _ => id) hLike
  obtain ⟨other, rfl, hFront, hTexts, -⟩ := hFinal
  rw [retext_none] at hTexts
  obtain rfl : other = layout := by
    cases other
    cases layout
    simp_all
  exact ⟨again, hAgain, hTold⟩

/-- A run over the registry file comes back to it. -/
theorem exists_gives_again_inline {before : Text}
    (hRead : w.store.readText settings.registryPath = .ok before)
    (hHosts : writtenIcons outcomes ≠ [] → Hosts editor grammar settings framework before)
    (hInline : settings.placement = .inline)
    (hFramework : Framework.Catalogue.builtin.get settings.framework = .ok framework)
    (hApart : RegistryApart settings w.store icons)
    (hProperty : ∀ icon ∈ icons, ∀ component, componentOf settings framework w.store icon = .ok component →
      grammar.property (some (nameOf icon)) component)
    (h : (add editor settings icons mode).Gives w outcomes w') :
    ∃ again v, (add editor settings icons mode).Gives w' again v ∧ w'.store.Same v.store ∧
      ∀ outcome ∈ again, outcome.Repeated mode := by
  obtain ⟨after, steps, hWritten⟩ := exists_steps_of_gives_inline hInline hFramework hRead h
  obtain ⟨again, hAgain, hTold⟩ := exists_entrySteps_again hHosts hProperty steps
  have hIcons : ∀ icon ∈ readIcons again, icon ∈ icons := by
    intro icon hIcon
    rw [← hAgain.map_icon fun _ _ _ _ step => step.icon_eq]
    obtain ⟨outcome, hOutcome, rfl⟩ := List.mem_map.mp hIcon
    exact List.mem_map_of_mem (List.mem_filter.mp hOutcome).1
  have hMoved : EntrySteps editor settings framework mode w'.store after icons after again :=
    entrySteps_congr hAgain fun icon hIcon => hWritten.componentOf_eq hRead hApart (hIcons icon hIcon)
  obtain ⟨v, hGives, hSame⟩ := exists_gives_add_inline hInline hFramework (hWritten.readText hRead) hMoved
  rw [RegistryWritten, if_pos rfl] at hSame
  exact ⟨again, v, hGives, hSame ▸ .refl _, hTold⟩

end

end Command

end IconRegistry
