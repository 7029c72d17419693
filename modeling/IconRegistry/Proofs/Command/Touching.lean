import IconRegistry.Proofs.Command.Removing
import IconRegistry.Proofs.Command.Stepping

/-! What commands touch. A recorded command keeps a list of the paths that it tests, writes or deletes; without the list
it is the command itself, and nothing changes but at those paths. Whatever an icon is called, the path of its component
file is that of the directory with one more component. -/
namespace IconRegistry

open Component Config Command

/-- What a command does with a path. -/
inductive Touch
  | test (path : Text)
  | write (path : Text)
  | delete (path : Text)
  deriving DecidableEq

def Touch.path : Touch → Text
  | test path | write path | delete path => path

/-- Whether something can change. -/
def Touch.changes : Touch → Bool
  | test _ => false
  | write _ | delete _ => true

/-- A workspace, and what was touched in it. -/
structure Recording where
  workspace : Workspace
  touches : List Touch

/-- A command that keeps a record. -/
abbrev Recorded := ExceptT CommandError (StateM Recording)

/-- From one store to another, nothing changes but where touches lead and where directories are made. -/
structure Store.ChangesAt (touches : List Touch) (a b : Store) : Prop where
  base : b.base = a.base
  directory : ∀ here, a.node? here = some .directory → b.node? here = some .directory
  node : ∀ here, b.node? here = a.node? here ∨ (a.node? here = none ∧ b.node? here = some .directory) ∨
    ∃ touch ∈ touches, touch.changes = true ∧ b.locate touch.path = .ok here

namespace Recorded

variable {α β : Type}

def untouched (command : Command α) : Recorded α := fun recording =>
  let (result, w) := command.run.run recording.workspace
  (result, { recording with workspace := w })

def touching (touch : Touch) (command : Command α) : Recorded α := do
  modify fun recording => { recording with touches := recording.touches ++ [touch] }
  untouched command

def tests (path : Text) : Recorded Bool :=
  touching (.test path) do return (← store).contains path

def writes (path text : Text) : Recorded Unit :=
  touching (.write path) (writeFile path text)

def deletes (path : Text) : Recorded Unit :=
  touching (.delete path) (removeFile path)

/-- Without its record, a recorded command is a command. It touches certain paths only, and changes nothing else. -/
def Records (recorded : Recorded α) (command : Command α) (within : Text → Prop) : Prop :=
  ∀ w touches, ∃ more,
    recorded.run.run ⟨w, touches⟩ =
      ((command.run.run w).1, ⟨(command.run.run w).2, touches ++ more⟩) ∧
    (∀ touch ∈ more, within touch.path) ∧ w.store.ChangesAt more (command.run.run w).2.store

end Recorded

namespace Store.ChangesAt

variable {a b c : Store} {touches more : List Touch} {path : Text} {here there : Location}

theorem refl (touches : List Touch) (store : Store) : store.ChangesAt touches store :=
  ⟨rfl, fun _ => id, fun _ => .inl rfl⟩

/-- Directories stay, so paths still lead to the same places. -/
theorem follow (h : a.ChangesAt touches b) {pieces : List Text} (hFollow : a.follow pieces here = .ok there) :
    b.follow pieces here = .ok there := by
  induction pieces generalizing here with
  | nil => exact hFollow
  | cons piece rest ih =>
      obtain ⟨hDirectory, next, hNext, hRest⟩ := follow_cons_eq_ok.mp hFollow
      exact follow_cons_eq_ok.mpr ⟨h.directory _ hDirectory, next, hNext, ih hRest⟩

theorem locate (h : a.ChangesAt touches b) (hLocate : a.locate path = .ok here) : b.locate path = .ok here := by
  obtain ⟨hNul, hNonempty, hLength, hLed⟩ := locate_eq_ok.mp hLocate
  refine locate_eq_ok.mpr ⟨hNul, hNonempty, hLength, ?_⟩
  rw [start, h.base]
  exact h.follow hLed

/-- Changes in a row are changes at both. -/
theorem trans (hab : a.ChangesAt touches b) (hbc : b.ChangesAt more c) : a.ChangesAt (touches ++ more) c := by
  refine ⟨hbc.base.trans hab.base, fun here h => hbc.directory here (hab.directory here h), fun here => ?_⟩
  rcases hbc.node here with hSame | ⟨hNone, hMade⟩ | ⟨touch, hTouch, hChanges, hLed⟩
  · rcases hab.node here with hFirst | ⟨hNone, hMade⟩ | ⟨touch, hTouch, hChanges, hLed⟩
    · exact .inl (hSame.trans hFirst)
    · exact .inr (.inl ⟨hNone, hSame.trans hMade⟩)
    · exact .inr (.inr ⟨touch, List.mem_append_left _ hTouch, hChanges, hbc.locate hLed⟩)
  · rcases hab.node here with hFirst | ⟨-, hDirectory⟩ | ⟨touch, hTouch, hChanges, hLed⟩
    · exact .inr (.inl ⟨hFirst.symm.trans hNone, hMade⟩)
    · rw [hNone] at hDirectory
      cases hDirectory
    · exact .inr (.inr ⟨touch, List.mem_append_left _ hTouch, hChanges, hbc.locate hLed⟩)
  · exact .inr (.inr ⟨touch, List.mem_append_right _ hTouch, hChanges, hLed⟩)

theorem of_addsDirectories (touches : List Touch) (h : a.AddsDirectories b) : a.ChangesAt touches b := by
  refine ⟨h.base, fun here hDirectory => h.toExtends.node here _ hDirectory, fun here => ?_⟩
  rcases h.node here with hSame | hMade
  · exact .inl hSame
  · exact .inr (.inl hMade)

theorem of_writeText {text : Text} (h : a.writeText path text = .ok b) : a.ChangesAt [.write path] b := by
  obtain ⟨here, hLocate, hFile, rfl⟩ := (writeText_eq_ok (getLast?_of_writeText h)).mp h
  have hSame := sameDirectories_put hFile text
  refine ⟨rfl, fun there => (hSame.node there).mpr, fun there => ?_⟩
  by_cases hThere : there = here
  · exact .inr (.inr ⟨_, List.mem_singleton_self _, rfl, by rw [hThere]; exact hSame.locate_iff.mpr hLocate⟩)
  · exact .inl (node?_put_of_ne a hThere _)

theorem of_removeFile (h : a.removeFile path = .ok b) : a.ChangesAt [.delete path] b := by
  obtain ⟨here, node, hLocate, hNode, hFile, rfl⟩ := removeFile_eq_ok.mp h
  have hSame := sameDirectories_erase (fun hDirectory => hFile (Option.some.inj (hNode.symm.trans hDirectory)))
  refine ⟨rfl, fun there => (hSame.node there).mpr, fun there => ?_⟩
  by_cases hThere : there = here
  · exact .inr (.inr ⟨_, List.mem_singleton_self _, rfl, by rw [hThere]; exact hSame.locate_iff.mpr hLocate⟩)
  · exact .inl (node?_erase_of_ne a hThere)

end Store.ChangesAt

namespace Command

/-- Whether or not it succeeds, writing a file changes that file and makes directories. -/
theorem changesAt_writeFile (path text : Text) (w : Workspace) :
    w.store.ChangesAt [.write path] ((writeFile path text).run.run w).2.store := by
  have hWrite (v : Workspace) : v.store.ChangesAt [.write path]
      ((change ("Failed to write ".toList ++ path) (·.writeText path text)).run.run v).2.store := by
    rcases hRun : (change ("Failed to write ".toList ++ path) (·.writeText path text)).run.run v with ⟨e | ⟨⟩, v'⟩
    · obtain ⟨cause, -, -, rfl⟩ := fails_change.mp hRun
      exact .refl _ _
    · exact .of_writeText (gives_change hRun)
  rw [writeFile]
  split
  · rename_i above _
    split
    · have hMade := addsDirectories_makeDirectories ("Failed to create ".toList ++ above) above w
      rw [run_bind]
      rcases hRun : (makeDirectories ("Failed to create ".toList ++ above) above).run.run w with ⟨e | ⟨⟩, between⟩
      all_goals rw [hRun] at hMade
      · exact .of_addsDirectories _ hMade
      · exact (Store.ChangesAt.of_addsDirectories [] hMade).trans (hWrite between)
    · exact hWrite w
  · exact hWrite w

theorem changesAt_removeFile (path : Text) (w : Workspace) :
    w.store.ChangesAt [.delete path] ((removeFile path).run.run w).2.store := by
  rcases hRun : (removeFile path).run.run w with ⟨e | ⟨⟩, w'⟩
  · obtain ⟨cause, -, -, rfl⟩ := fails_removeFile.mp hRun
    exact .refl _ _
  · obtain ⟨changed, hChanged, rfl⟩ := gives_removeFile.mp hRun
    exact .of_removeFile hChanged

end Command

namespace Recorded.Records

variable {α β : Type} {within : Text → Prop}

/-- A command that keeps the store touches nothing. -/
theorem untouched {command : Command α} (h : KeepsStore command) : Records (untouched command) command within :=
  fun w touches => ⟨[], by rw [List.append_nil]; rfl, by simp, by rw [h w]; exact .refl _ _⟩

/-- A command that changes one path touches it. -/
theorem touching {touch : Touch} {command : Command α} (hWithin : within touch.path)
    (h : ∀ w : Workspace, w.store.ChangesAt [touch] (command.run.run w).2.store) :
    Records (touching touch command) command within :=
  fun w touches => ⟨[touch], rfl, by simpa using hWithin, h w⟩

theorem tests {path : Text} (hWithin : within path) :
    Records (tests path) (do return (← store).contains path) within :=
  .touching hWithin fun w => .refl _ w.store

theorem writes {path text : Text} (hWithin : within path) : Records (writes path text) (writeFile path text) within :=
  .touching hWithin (changesAt_writeFile path text)

theorem deletes {path : Text} (hWithin : within path) : Records (deletes path) (removeFile path) within :=
  .touching hWithin (changesAt_removeFile path)

theorem pure (a : α) : Records (Pure.pure a) (Pure.pure a) within :=
  fun w touches => ⟨[], by rw [List.append_nil]; rfl, by simp, .refl _ _⟩

/-- Commands in a row touch what each of them touches. -/
theorem bind {recorded : Recorded α} {command : Command α} {recordedNext : α → Recorded β} {next : α → Command β}
    (h : Records recorded command within)
    (hNext : ∀ a, (∃ w w', command.Gives w a w') → Records (recordedNext a) (next a) within) :
    Records (recorded >>= recordedNext) (command >>= next) within := by
  intro w touches
  obtain ⟨first, hFirst, hWithin, hChanges⟩ := h w touches
  rw [run_bind, run_bind, hFirst]
  rcases hRun : command.run.run w with ⟨e | a, between⟩
  · rw [hRun] at hChanges
    exact ⟨first, rfl, hWithin, hChanges⟩
  · rw [hRun] at hChanges
    obtain ⟨second, hSecond, hAlso, hMore⟩ := hNext a ⟨w, between, hRun⟩ between (touches ++ first)
    refine ⟨first ++ second, ?_, ?_, hChanges.trans hMore⟩
    · simp only [hSecond, List.append_assoc]
    · exact List.forall_mem_append.mpr ⟨hWithin, hAlso⟩

theorem of_run_eq {recorded : Recorded α} {command other : Command α} (h : Records recorded command within)
    (hSame : ∀ w, other.run.run w = command.run.run w) : Records recorded other within := by
  intro w touches
  rw [hSame]
  exact h w touches

/-- A test in front of a command is one that the command makes itself, of the store as it finds it. -/
theorem testing {path : Text} {recordedNext : Bool → Recorded β} {next : Store → Command β} (hWithin : within path)
    (hNext : ∀ files, Records (recordedNext (files.contains path)) (next files) within) :
    Records (Recorded.tests path >>= recordedNext) (Command.store >>= next) within := by
  intro w touches
  obtain ⟨more, hRun, hMore, hChanges⟩ := hNext w.store w (touches ++ [.test path])
  refine ⟨[.test path] ++ more, ?_, ?_, (Store.ChangesAt.refl _ _).trans hChanges⟩
  · rw [← List.append_assoc]
    exact hRun
  · exact List.forall_mem_append.mpr ⟨List.forall_mem_singleton.mpr hWithin, hMore⟩

/-- Commands over a list touch what each of them touches. -/
theorem mapM {ι : Type} {items : List ι} {recorded : ι → Recorded α} {command : ι → Command α}
    (h : ∀ item ∈ items, Records (recorded item) (command item) within) :
    Records (items.mapM recorded) (items.mapM command) within := by
  induction items with
  | nil => exact .pure _
  | cons item rest ih =>
      obtain ⟨hFirst, hRest⟩ := List.forall_mem_cons.mp h
      rw [List.mapM_cons, List.mapM_cons]
      exact hFirst.bind fun _ _ => (ih hRest).bind fun _ _ => .pure _

theorem forM {ι : Type} {items : List ι} {recorded : ι → Recorded Unit} {command : ι → Command Unit}
    (h : ∀ item ∈ items, Records (recorded item) (command item) within) :
    Records (items.forM recorded) (items.forM command) within := by
  induction items with
  | nil => exact .pure _
  | cons item rest ih =>
      obtain ⟨hFirst, hRest⟩ := List.forall_mem_cons.mp h
      exact hFirst.bind fun _ _ => ih hRest

end Recorded.Records

namespace Command

open Recorded

def recordedAddFile (settings : Settings) (framework : Framework) (mode : AddMode) (icon : Text) : Recorded Outcome := do
  let path := componentPath settings framework (nameOf icon)
  let registered ← tests path
  match mode.skipReason? registered with
  | some reason => return .skipped icon reason
  | none =>
    match ← untouched (makeComponent settings framework icon) with
    | .error e => return .failed icon e.message
    | .ok component =>
      writes path component
      return if registered then .replaced icon else .added icon

def recordedAdd (settings : Settings) (icons : List Text) (mode : AddMode) : Recorded (List Outcome) := do
  let framework ← untouched (framework settings)
  untouched (debug ["processing ".toList ++ Text.ofNat icons.length ++ " icon(s) for ".toList ++ framework.name ++
    " (".toList ++ placementWord settings.placement ++ [')']])
  icons.mapM (recordedAddFile settings framework mode)

def recordedMissing (settings : Settings) (framework : Framework) : List Text → Recorded (List Text)
  | [] => return []
  | name :: rest => do
    let registered ← tests (componentPath settings framework name)
    let missing ← recordedMissing settings framework rest
    return if registered then missing else name :: missing

def recordedRemoveFiles (settings : Settings) (names : List Text) : Recorded Unit := do
  let framework ← untouched (framework settings)
  let missing ← recordedMissing settings framework names
  if !missing.isEmpty then untouched (throw (.registry (.missingEntries missing)))
  names.forM fun name => deletes (componentPath settings framework name)

/-- `remove` with a record, for components with files of their own. -/
def recordedRemove (settings : Settings) (icons : List Text) : Recorded (List Outcome) := do
  let icons := distinctIcons [] icons
  recordedRemoveFiles settings (icons.map nameOf)
  return icons.map .removed

/-- A path is that of the output directory with one more component, which is the component name of one of certain
icons with the extension of the framework. -/
def IsFileOf (settings : Settings) (icons : List Text) (path : Text) : Prop :=
  ∃ icon ∈ icons, ∃ framework, Framework.Catalogue.builtin.get settings.framework = .ok framework ∧
    ∃ file, file = nameOf icon ++ '.' :: framework.extension settings.typescript ∧
      path = Path.join settings.registryPath file ∧ '/' ∉ file ∧ file ≠ ".".toList ∧ file ≠ "..".toList

section

variable {settings : Settings} {framework : Framework} {icons : List Text} {icon path : Text} {store : Store}
  {here : Location}

theorem isFileOf_componentPath (hFramework : Framework.Catalogue.builtin.get settings.framework = .ok framework)
    (hIcon : icon ∈ icons) : IsFileOf settings icons (componentPath settings framework (nameOf icon)) := by
  have hExtension := isExtension_extension framework settings.typescript
  refine ⟨icon, hIcon, framework, hFramework, _, rfl, rfl, ?_, ?_, ?_⟩
  · simpa using ⟨slash_not_mem_nameOf icon, hExtension.slash⟩
  · intro hSame
    have hIdle := hExtension.not_idle (nameOf icon)
    rw [hSame] at hIdle
    exact absurd hIdle (by decide)
  · intro hSame
    have hUpward := hExtension.not_upward (nameOf icon)
    rw [hSame] at hUpward
    exact absurd hUpward (by decide)

/-- Such a path leads into the output directory, wherever that is. -/
theorem IsFileOf.exists_home (h : IsFileOf settings icons path) (hLocate : store.locate path = .ok here) :
    ∃ home file, store.follow (ComponentFile.piecesTo settings.registryPath) (store.start settings.registryPath) =
      .ok home ∧ store.node? home = some .directory ∧ here = home ++ [file] := by
  obtain ⟨icon, -, framework, -, file, rfl, rfl, -⟩ := h
  obtain ⟨home, hHome, hDirectory, hHere⟩ := ComponentFile.exists_home
    (isExtension_extension framework settings.typescript) (slash_not_mem_nameOf icon) hLocate
  exact ⟨home, _, hHome, hDirectory, hHere⟩

/-- Adding a file touches the file of its icon. -/
theorem records_addFile (hFramework : Framework.Catalogue.builtin.get settings.framework = .ok framework)
    (mode : AddMode) (hIcon : icon ∈ icons) :
    (recordedAddFile settings framework mode icon).Records (addFile settings framework mode icon)
      (IsFileOf settings icons) := by
  have hPath := isFileOf_componentPath hFramework hIcon
  refine Recorded.Records.testing hPath fun files => ?_
  dsimp only
  cases mode.skipReason? (files.contains (componentPath settings framework (nameOf icon))) with
  | some reason => exact .pure _
  | none =>
      refine .bind (.untouched (keepsStore_makeComponent settings framework icon)) fun made _ => ?_
      cases made with
      | error e => exact .pure _
      | ok component => exact .bind (.writes hPath) fun _ _ => .pure _

/-- An addition touches the files of its icons. -/
theorem records_add (editor : Registry.Editor) (mode : AddMode) (icons : List Text)
    (hStandalone : settings.placement = .standalone) :
    (recordedAdd settings icons mode).Records (add editor settings icons mode) (IsFileOf settings icons) := by
  refine .bind (.untouched (.framework settings)) fun framework hGiven => ?_
  obtain ⟨w, w', hGives⟩ := hGiven
  obtain ⟨hFramework, -⟩ := gives_framework.mp hGives
  refine .bind (.untouched (.debug _)) fun _ _ => ?_
  rw [hStandalone]
  exact .mapM fun icon hIcon => records_addFile hFramework mode hIcon

/-- Files that are missing are looked for one by one, in a store that stays. -/
theorem records_missing {names : List Text} {within : Text → Prop}
    (h : ∀ name ∈ names, within (componentPath settings framework name)) :
    (recordedMissing settings framework names).Records
      (Command.store >>= fun files =>
        pure (names.filter fun name => !files.contains (componentPath settings framework name))) within := by
  induction names with
  | nil => exact (Recorded.Records.pure []).of_run_eq fun _ => rfl
  | cons name rest ih =>
      obtain ⟨hFirst, hRest⟩ := List.forall_mem_cons.mp h
      refine ((Recorded.Records.tests hFirst).bind fun registered _ =>
        (ih hRest).bind fun missing _ => .pure _).of_run_eq fun w => ?_
      change (Except.ok _, w) = (Except.ok _, w)
      rw [List.filter_cons]
      cases w.store.contains (componentPath settings framework name) <;> rfl

/-- A removal of files touches the files of the names. -/
theorem records_removeFiles {names : List Text} {within : Text → Prop}
    (h : ∀ framework, Framework.Catalogue.builtin.get settings.framework = .ok framework →
      ∀ name ∈ names, within (componentPath settings framework name)) :
    (recordedRemoveFiles settings names).Records (removeFiles settings names) within := by
  refine .bind (.untouched (.framework settings)) fun framework hGiven => ?_
  obtain ⟨w, w', hGives⟩ := hGiven
  have hNames := h framework (gives_framework.mp hGives).1
  let after (missing : List Text) : Command Unit := do
    if !missing.isEmpty then throw (.registry (.missingEntries missing))
    names.forM fun name => removeFile (componentPath settings framework name)
  suffices hAfter : ∀ missing, Recorded.Records _ (after missing) within from
    ((records_missing hNames).bind fun missing _ => hAfter missing).of_run_eq fun _ => rfl
  intro missing
  cases missing with
  | nil => exact .forM fun name hName => .deletes (hNames name hName)
  | cons name rest =>
      exact .bind (.untouched (.throw _)) fun _ _ => .forM fun name hName => .deletes (hNames name hName)

/-- A removal touches the files of its icons. -/
theorem records_remove (editor : Registry.Editor) (icons : List Text)
    (hStandalone : settings.placement = .standalone) :
    (recordedRemove settings icons).Records (remove editor settings icons) (IsFileOf settings icons) := by
  rw [remove]
  simp only [hStandalone]
  refine .bind (records_removeFiles fun framework hFramework name hName => ?_) fun _ _ => .pure _
  obtain ⟨icon, hIcon, rfl⟩ := List.mem_map.mp hName
  exact isFileOf_componentPath hFramework (List.mem_of_find?_eq_some (firstMention?_of_mem hIcon).2)

end

/-- Whatever icons are called, the paths that adding or removing components with files of their own tests, writes or
deletes are those of the output directory with one more component, and only there anything changes. -/
theorem touches_component_files (editor : Registry.Editor) (settings : Settings)
    (hStandalone : settings.placement = .standalone) :
    (∀ mode icons,
      (recordedAdd settings icons mode).Records (add editor settings icons mode) (IsFileOf settings icons)) ∧
    (∀ icons, (recordedRemove settings icons).Records (remove editor settings icons) (IsFileOf settings icons)) ∧
    ∀ icons path (store : Store) here, IsFileOf settings icons path → store.locate path = .ok here →
      ∃ home file, store.follow (ComponentFile.piecesTo settings.registryPath) (store.start settings.registryPath) =
        .ok home ∧ store.node? home = some .directory ∧ here = home ++ [file] :=
  ⟨fun mode icons => records_add editor mode icons hStandalone, fun icons => records_remove editor icons hStandalone,
    fun _ _ _ _ h hLocate => h.exists_home hLocate⟩

/-- Names that would lead out of the output directory if they were paths. -/
theorem touches_component_files_upward :
    let settings : Settings := { registryPath := "src/icons".toList, placement := .standalone }
    let w : Workspace := ⟨⟨[], [(["icons".toList], .directory),
      (["icons".toList, "home.svg".toList], .file "<svg/>".toList)]⟩, []⟩
    let hostile : List Text := ["../../etc/passwd".toList, "/root".toList, "..".toList]
    ((recordedAdd settings ["home".toList] .upsert).run.run ⟨w, []⟩).2.touches =
        [.test "src/icons/Home.tsx".toList, .write "src/icons/Home.tsx".toList] ∧
      ((recordedRemove settings hostile).run.run ⟨w, []⟩).2.touches = [.test "src/icons/EtcPasswd.tsx".toList,
        .test "src/icons/Root.tsx".toList, .test "src/icons/.tsx".toList] ∧
      (recordedAdd settings ["home".toList] .upsert).Records (add settings.editor settings ["home".toList] .upsert)
        (IsFileOf settings ["home".toList]) ∧
      (recordedRemove settings hostile).Records (remove settings.editor settings hostile)
        (IsFileOf settings hostile) := by
  intro settings w hostile
  obtain ⟨hAdd, hRemove, -⟩ := touches_component_files settings.editor settings rfl
  exact ⟨by decide +kernel, by decide +kernel, hAdd .upsert _, hRemove hostile⟩

end Command

end IconRegistry
