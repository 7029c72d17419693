import IconRegistry.Proofs.Command.Initialising
import IconRegistry.Proofs.Command.ServingEntries
import IconRegistry.Proofs.Command.ServingFiles

/-! The two placements of components. A registry file and files of their own hold the same set of names after the same
requests, and tell the same. -/
namespace IconRegistry

open Component Registry Config

/-- The settings with components in files of their own, in a directory. -/
def Config.Settings.filedIn (settings : Settings) (directory : Text) : Settings :=
  { settings with placement := .standalone, registryPath := directory }

namespace Command

/-- No component has a file yet, and nothing is in the place of one that may be asked for. -/
structure IsFresh (settings : Settings) (framework : Framework) (icons : List Text) (store : Store) : Prop where
  nothing : ComponentFile.all store settings.registryPath (framework.extension settings.typescript) = []
  free : ∀ icon ∈ icons, store.contains (componentPath settings framework (nameOf icon)) = false

section

variable {editor : Editor} {grammar : Grammar} {settings : Settings} {framework : Framework}
  {before after directory configPath : Text} {icons : List Text} {yes : Bool} {w v u : Workspace}

/-- An icon that is fetched the same becomes a component in both placements, or fails in both for the same reason. -/
theorem failure?_componentOf_filedIn {a b : Store} {icon : Text}
    (hFetch : IconSource.fetch b settings.iconsDirectory icon = IconSource.fetch a settings.iconsDirectory icon) :
    failure? (componentOf (settings.filedIn directory) framework b icon) =
      failure? (componentOf settings framework a icon) := by
  have hBody : ∀ markup, framework.body canonicalOptimizer ((settings.filedIn directory).spec icon) markup =
      framework.body canonicalOptimizer (settings.spec icon) markup := by
    intro markup
    cases framework <;> rfl
  have hDirectory : (settings.filedIn directory).iconsDirectory = settings.iconsDirectory := rfl
  rw [componentOf, componentOf, hDirectory, hFetch]
  cases IconSource.fetch a settings.iconsDirectory icon with
  | error e => rfl
  | ok markup =>
      simp only [Framework.transform, hBody]
      cases framework.body canonicalOptimizer (settings.spec icon) markup <;> rfl

theorem entered_of_gives_init {grammar : Grammar} {before after : Text} {imports : List (Text × List Text × Bool)}
    (reads : ReadsTemplate editor grammar settings framework before after imports) (hInline : settings.placement = .inline)
    (hFramework : Framework.Catalogue.builtin.get settings.framework = .ok framework)
    (h : (init settings configPath yes).Gives w () v) (hQuiet : ∀ line ∈ v.log, line.severity ≠ .warning) :
    Entered grammar settings framework before after icons v.store (fun _ => false) v.store :=
  ⟨.refl settings framework icons v.store, _, readText_of_gives_init hInline hFramework h hQuiet, reads.lines⟩

theorem filed_of_gives_init (hStandalone : settings.placement = .standalone)
    (hFramework : Framework.Catalogue.builtin.get settings.framework = .ok framework)
    (hNonempty : settings.registryPath ≠ []) (h : (init settings configPath yes).Gives w () u)
    (hFresh : IsFresh settings framework icons u.store) :
    ∃ home, Filed settings framework icons u.store home (fun _ => false) u.store := by
  obtain ⟨home, hLocated, hHome⟩ :=
    Store.hasDirectory_iff.mp (hasDirectory_of_gives_init hStandalone hFramework hNonempty h)
  refine ⟨home, .refl settings framework icons u.store, ComponentFile.holds_nothing hLocated hHome hFresh.nothing,
    by simp, fun name hName _ => ?_⟩
  obtain ⟨icon, hIcon, rfl⟩ := List.mem_map.mp hName
  exact hFresh.free icon hIcon

/-- Two fresh projects with the same icons, one for each placement, give answers that agree to the same requests, as
long as no file fails to be written or removed. The registry is a file of types and JSX and its collection has a name that
a constant may have; what the icons become is read as one member that has the name of its component. The icons are apart
from the outputs, and the directory has a path. -/
theorem placements_agree (hPath : (Script.Dialect.ofPath? settings.registryPath).getD .tsx = .tsx)
    (hCollection : Script.Rule.IsBindable .tsx settings.collection) (hInline : settings.placement = .inline)
    (hFramework : Framework.Catalogue.builtin.get settings.framework = .ok framework) {start start' : Workspace}
    (hInit : (init settings configPath yes).Gives start () v) (hQuiet : ∀ line ∈ v.log, line.severity ≠ .warning)
    (hInitFiled : (init (settings.filedIn directory) configPath yes).Gives start' () u) (hNonempty : directory ≠ [])
    (hFresh : IsFresh (settings.filedIn directory) framework icons u.store)
    (hFetch : ∀ icon ∈ icons, IconSource.fetch u.store settings.iconsDirectory icon =
      IconSource.fetch v.store settings.iconsDirectory icon)
    (hApart : IconsApart settings framework icons v.store)
    (hApartFiled : IconsApart (settings.filedIn directory) framework icons u.store)
    (hNames : ∀ icon ∈ icons, nameOf icon ≠ [])
    (hMade : ∀ icon ∈ icons, ∀ component, componentOf settings framework v.store icon = .ok component →
      Script.IsMember (some (nameOf icon)) component)
    {requests : List Request} (hIcons : ∀ request ∈ requests, ∀ icon ∈ request.icons, icon ∈ icons)
    (hFiles : ∀ answer ∈ answers (settings.filedIn directory).editor (settings.filedIn directory) u requests,
      answer.failsOnFile = false) :
    List.Forall₂ Answer.Agrees (answers settings.editor settings v requests)
      (answers (settings.filedIn directory).editor (settings.filedIn directory) u requests) := by
  obtain ⟨before, after, imports, reads⟩ := exists_readsTemplate hPath hCollection framework
  have hEntered : Entered .members settings framework before after icons v.store (fun _ => false) v.store :=
    entered_of_gives_init reads hInline hFramework hInit hQuiet
  obtain ⟨home, hFiled⟩ : ∃ home, Filed (settings.filedIn directory) framework icons u.store home (fun _ => false)
      u.store :=
    filed_of_gives_init rfl hFramework hNonempty hInitFiled hFresh
  have serves := serves_entries hInline hFramework reads hApart hMade
  have serves' : Serves (componentOf settings framework v.store) (settings.filedIn directory).editor
      (settings.filedIn directory) icons (·.isOfFile = true)
      (Filed (settings.filedIn directory) framework icons u.store home) :=
    serves_files rfl hFramework hApartFiled (fun icon hIcon => failure?_componentOf_filedIn (hFetch icon hIcon)) hNames
  refine serves.agree serves' hIcons hEntered hFiled (fun _ _ _ _ => id) fun answer hAnswer e hError => ?_
  have hOther := hFiles answer hAnswer
  simpa [Answer.failsOnFile, hError, failure?] using hOther

end

/-- Requests about an icon that is there and one that is missing. -/
theorem placements_agree_on_home :
    let settings : Settings := { framework := "vue".toList }
    let filed := settings.filedIn "src/icons/".toList
    let start : Workspace := ⟨⟨[], [(["icons".toList], .directory),
      (["icons".toList, "home.svg".toList], .file "<svg/>".toList)]⟩, []⟩
    let v := ((init settings "iconsmith.toml".toList false).run.run start).2
    let u := ((init filed "iconsmith.toml".toList false).run.run start).2
    let requests : List Request := [.add .add ["home".toList, "ghost".toList], .add .upsert ["home".toList],
      .remove ["home".toList, "ghost".toList], .add .replace ["home".toList, "ghost".toList], .clear]
    (answers settings.editor settings v requests).map (·.result.toOption) =
        [some [.added "home".toList, .failed "ghost".toList "Icon not found: ghost".toList],
          some [.replaced "home".toList], none,
          some [.replaced "home".toList, .skipped "ghost".toList "not registered".toList], some []] ∧
      List.Forall₂ Answer.Agrees (answers settings.editor settings v requests) (answers filed.editor filed u requests) := by
  intro settings filed start v u requests
  have hInit : (init settings "iconsmith.toml".toList false).Gives start () v := gives_of_result (by decide +kernel)
  have hInitFiled : (init filed "iconsmith.toml".toList false).Gives start () u := gives_of_result (by decide +kernel)
  have hTrees : NamesTrees readPieces settings .vue v.store ["home".toList, "ghost".toList] :=
    namesTrees_of_isFrame (by decide +kernel)
  have hMade : ∀ icon ∈ ["home".toList, "ghost".toList], ∀ component,
      componentOf settings .vue v.store icon = .ok component → Script.IsMember (some (nameOf icon)) component :=
    fun icon hIcon component hComponent => makesProperties_of_names readPieces_composes rfl hTrees icon hIcon component
      hComponent ((by decide : ∀ icon ∈ ["home".toList, "ghost".toList], Script.IsIdentifier (nameOf icon)) icon hIcon)
  refine ⟨by decide +kernel, ?_⟩
  exact placements_agree (by decide) ⟨by decide, by decide, fun _ => by decide⟩ rfl rfl hInit (by decide +kernel) hInitFiled
    (by decide) ⟨by decide +kernel, by decide +kernel⟩ (by decide +kernel) (by decide +kernel) (by decide +kernel)
    (by decide +kernel) hMade (by decide +kernel) (by decide +kernel)

/-- The result of an answer and the number of names that are listed. -/
def Answer.counted (answer : Answer) : Except CommandError (List Outcome) × Option Nat :=
  (answer.result, answer.listed.toOption.map List.length)

/-- Answers that agree tell as many names. -/
theorem counted_eq_of_agree {a b : List Answer} (h : List.Forall₂ Answer.Agrees a b) :
    a.map Answer.counted = b.map Answer.counted := by
  induction h with
  | nil => rfl
  | cons hFirst _ ih =>
      obtain ⟨hResult, names, others, hListed, hListed', hNodup, hNodup', hSame⟩ := hFirst
      have hPerm : names.Perm others := (List.perm_ext_iff_of_nodup hNodup hNodup').mpr hSame
      rw [List.map_cons, List.map_cons, ih, Answer.counted, Answer.counted, hResult, hListed, hListed']
      simp [Except.toOption, hPerm.length_eq]

/-- What the placements disagree over: a collection with a name that a script cannot have, a directory without a path,
and icons whose paths come by a component file or by the registry file. -/
theorem placements_disagree :
    let start : Workspace := ⟨⟨[], [(["icons".toList], .directory),
      (["icons".toList, "home.svg".toList], .file "<svg/>".toList)]⟩, []⟩
    let told (settings : Settings) (requests : List Request) : List Answer :=
      answers settings.editor settings ((init settings "iconsmith.toml".toList false).run.run start).2 requests
    let disagree (settings : Settings) (directory : Text) (requests : List Request) : Prop :=
      (∀ answer ∈ told settings requests ++ told (settings.filedIn directory) requests, answer.failsOnFile = false) ∧
        ¬List.Forall₂ Answer.Agrees (told settings requests) (told (settings.filedIn directory) requests)
    let add (icon : String) : Request := .add .add [icon.toList]
    disagree { collection := "my-icons".toList } "out".toList [add "home"] ∧
      disagree {} [] [add "home"] ∧
      disagree {} "icons".toList [add "home", add "Home.tsx/x"] ∧
      disagree { registryPath := "icons/icons.tsx".toList } "out".toList [add "icons.tsx/x"] := by
  intro start told disagree add
  have hDisagree : ∀ settings directory requests,
      (∀ answer ∈ told settings requests ++ told (settings.filedIn directory) requests, answer.failsOnFile = false) ∧
        ((told settings requests).map Answer.counted).getLast? ≠
          ((told (settings.filedIn directory) requests).map Answer.counted).getLast? →
      disagree settings directory requests :=
    fun settings directory requests h => ⟨h.1, fun hAgree => h.2 (congrArg List.getLast? (counted_eq_of_agree hAgree))⟩
  exact ⟨hDisagree _ _ _ (by decide +kernel), hDisagree _ _ _ (by decide +kernel),
    hDisagree _ _ _ (by decide +kernel), hDisagree _ _ _ (by decide +kernel)⟩

end Command

end IconRegistry
