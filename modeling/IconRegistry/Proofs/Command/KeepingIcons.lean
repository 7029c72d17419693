import IconRegistry.Proofs.Command.Touching
import IconRegistry.Proofs.Store.Available
import IconRegistry.Proofs.Store.Changing

/-! Icons while component files are written. The files of icons and those of components have different extensions, so no
icon is lost; and in a directory that was there at the beginning, none is found that was not. -/
namespace IconRegistry

open Component Config

namespace Store

/-- A path with an extension leads to a place whose name has that extension. -/
theorem exists_name_of_locate {store : Store} {front extension : Text} {here : Location}
    (h : ComponentFile.IsExtension extension) (hLocate : store.locate (front ++ '.' :: extension) = .ok here) :
    ∃ home name, here = home ++ [name ++ '.' :: extension] := by
  obtain ⟨pieces, name, hSplit⟩ : ∃ pieces name,
      Text.splitAtChar '/' (front ++ '.' :: extension) = pieces ++ [name ++ '.' :: extension] := by
    obtain ⟨name, hName, rfl | ⟨more, rfl⟩⟩ := Text.exists_lastPiece '/' front
    · exact ⟨[], front, Text.splitAtChar_of_not_mem (by simp [hName, h.slash])⟩
    · refine ⟨Text.splitAtChar '/' more, name, ?_⟩
      rw [List.append_assoc, List.cons_append, Text.splitAtChar_append,
        Text.splitAtChar_of_not_mem (s := name ++ '.' :: extension) (by simp [hName, h.slash])]
  obtain ⟨home, -, -, hStep⟩ := Store.exists_home ⟨hSplit, h.not_idle name⟩ hLocate
  exact ⟨home, name, h.eq_of_step? hStep⟩

/-- What stands behind the last dot is determined. -/
theorem extension_eq {a b front other : Text} (ha : '.' ∉ a) (hb : '.' ∉ b)
    (h : front ++ '.' :: a = other ++ '.' :: b) : a = b := by
  rcases List.append_eq_append_iff.mp h with ⟨more, -, hRest⟩ | ⟨more, -, hRest⟩
  · cases more with
    | nil => exact (List.cons_eq_cons.mp hRest).2
    | cons c more =>
        obtain ⟨-, rfl⟩ := List.cons_eq_cons.mp hRest
        exact absurd (by simp) ha
  · cases more with
    | nil => exact (List.cons_eq_cons.mp hRest).2.symm
    | cons c more =>
        obtain ⟨-, rfl⟩ := List.cons_eq_cons.mp hRest
        exact absurd (by simp) hb

/-- Pieces that do not point upward lead further down. -/
theorem prefix_of_follow {store : Store} {pieces : List Text} {here there : Location} (hDown : ['.', '.'] ∉ pieces)
    (h : store.follow pieces here = .ok there) : here <+: there := by
  induction pieces generalizing here with
  | nil =>
      obtain rfl := Except.ok.inj h
      exact List.prefix_refl _
  | cons piece rest ih =>
      obtain ⟨-, next, hNext, hRest⟩ := follow_cons_eq_ok.mp h
      rw [List.mem_cons, not_or] at hDown
      have hUpward : Path.isUpward piece = false := beq_eq_false_iff_ne.mpr (Ne.symm hDown.1)
      have hBelow := ih hDown.2 hRest
      rw [step?, hUpward] at hNext
      simp only [Bool.false_eq_true, if_false] at hNext
      split_ifs at hNext
      · obtain rfl := Option.some.inj hNext
        exact hBelow
      · obtain rfl := Option.some.inj hNext
        exact (List.prefix_append _ _).trans hBelow

/-- A path below a directory leads to something only where the directory is found. -/
theorem exists_locate_of_join {store : Store} {root below : Text} {here : Location} (hRoot : root ≠ [])
    (hRelative : Path.isAbsolute below = false) (h : store.locate (Path.join root below) = .ok here) :
    ∃ home, store.locate root = .ok home := by
  obtain ⟨hNul, -, hLength, hFollow⟩ := locate_eq_ok.mp h
  obtain ⟨more, hMore⟩ : ∃ more, Path.join root below = root ++ more := by
    simp only [Path.join, hRelative, List.isEmpty_eq_false_iff.mpr hRoot, Bool.or_self, Bool.false_eq_true, if_false]
    split
    · exact ⟨_, rfl⟩
    · exact ⟨_, rfl⟩
  obtain ⟨pieces, -, hSplit, hPieces⟩ := Path.splitAtChar_join hRoot hRelative
  rw [start, Path.isAbsolute_join hRoot hRelative, ← start, hSplit, follow_append_eq_ok] at hFollow
  obtain ⟨home, hHome, hBelow⟩ := hFollow
  obtain ⟨piece, rest, hFirst⟩ := List.exists_cons_of_ne_nil (Text.splitAtChar_ne_nil '/' below)
  rw [hFirst, follow_cons_eq_ok] at hBelow
  rw [hMore] at hNul hLength
  rw [Text.byteLength_append] at hLength
  refine ⟨home, locate_eq_ok.mpr ⟨fun hMem => hNul (List.mem_append_left _ hMem), hRoot,
    Nat.le_of_add_right_le hLength, ?_⟩⟩
  rcases hPieces with hSame | hMore
  · rw [hSame, hHome]
  · rw [hMore, follow_append_eq_ok]
    exact ⟨home, hHome, follow_cons_eq_ok.mpr ⟨hBelow.1, home, rfl, rfl⟩⟩

/-- The way down to a file that is there was there already. -/
theorem Rooted.follow_of_file {a b : Store} (rooted : a.Rooted) {pieces : List Text} {here there : Location}
    {text : Text} (hDown : ['.', '.'] ∉ pieces) (h : b.follow pieces here = .ok there)
    (hFile : b.node? there = some (.file text)) (hThere : a.node? there = some (.file text)) :
    a.follow pieces here = .ok there := by
  induction pieces generalizing here with
  | nil => exact h
  | cons piece rest ih =>
      obtain ⟨more, rfl⟩ := prefix_of_follow hDown h
      obtain ⟨hDirectory, next, hNext, hRest⟩ := follow_cons_eq_ok.mp h
      have hMore : more ≠ [] := by
        rintro rfl
        rw [List.append_nil, hDirectory] at hFile
        cases hFile
      have hAbove := rooted.directory_above hMore (by rw [hThere]; rfl)
      exact follow_cons_eq_ok.mpr ⟨hAbove, next, hNext, ih (List.not_mem_of_not_mem_cons hDown) hRest⟩

end Store

namespace Command

/-- From one store to another, nothing changes but component files, and directories that are made. -/
def ChangesComponents (settings : Settings) (framework : Framework) (a b : Store) : Prop :=
  ∃ touches : List Touch, (∀ touch ∈ touches, ∃ name, touch.path = componentPath settings framework name) ∧
    a.ChangesAt touches b

/-- The icons of a batch have the same markup in two stores, or none in both. -/
def SameIcons (settings : Settings) (icons : List Text) (a b : Store) : Prop :=
  ∀ icon ∈ icons, (IconSource.fetch b settings.iconsDirectory icon).toOption =
    (IconSource.fetch a settings.iconsDirectory icon).toOption

section

variable {settings : Settings} {framework : Framework} {a b c : Store} {icon name path markup text root : Text}
  {here there : Location} {icons : List Text}

/-- Components and icons have different extensions. -/
theorem extension_ne (framework : Framework) (typescript : Bool) :
    framework.extension typescript ≠ IconSource.extension := by
  cases framework <;> cases typescript <;> decide

theorem isExtension_icon : ComponentFile.IsExtension IconSource.extension :=
  ⟨by decide, by decide, by decide⟩

theorem exists_front_componentPath (settings : Settings) (framework : Framework) (name : Text) :
    ∃ front, componentPath settings framework name = front ++ '.' :: framework.extension settings.typescript := by
  rw [componentPath, ComponentFile.pathOf, Path.join]
  split_ifs
  · exact ⟨name, rfl⟩
  · exact ⟨settings.registryPath ++ name, by simp⟩
  · exact ⟨settings.registryPath ++ '/' :: name, by simp⟩

theorem exists_front_path (h : IconSource.path? root icon = some path) :
    ∃ front, path = front ++ '.' :: IconSource.extension := by
  rw [IconSource.path?] at h
  split at h
  · obtain rfl := Option.some.inj h
    rw [Path.join]
    split_ifs
    · exact ⟨icon, rfl⟩
    · exact ⟨root ++ icon, by simp⟩
    · exact ⟨root ++ '/' :: icon, by simp⟩
  · cases h

/-- The file of an icon is no component file. -/
theorem place_ne_of_icon (hPath : IconSource.path? root icon = some path) (hIcon : a.locate path = .ok here)
    (hComponent : b.locate (componentPath settings framework name) = .ok there) : here ≠ there := by
  obtain ⟨front, rfl⟩ := exists_front_path hPath
  obtain ⟨home, stem, rfl⟩ := Store.exists_name_of_locate isExtension_icon hIcon
  obtain ⟨more, hMore⟩ := exists_front_componentPath settings framework name
  have hExtension := isExtension_extension framework settings.typescript
  rw [hMore] at hComponent
  obtain ⟨other, file, rfl⟩ := Store.exists_name_of_locate hExtension hComponent
  intro hSame
  have hLast := (List.append_inj' hSame rfl).2
  exact extension_ne framework settings.typescript
    (Store.extension_eq hExtension.dot isExtension_icon.dot (List.singleton_inj.mp hLast).symm)

namespace ChangesComponents

theorem refl (store : Store) : ChangesComponents settings framework store store :=
  ⟨[], by simp, .refl _ _⟩

theorem trans (hab : ChangesComponents settings framework a b) (hbc : ChangesComponents settings framework b c) :
    ChangesComponents settings framework a c := by
  obtain ⟨touches, hTouches, hFirst⟩ := hab
  obtain ⟨more, hMore, hSecond⟩ := hbc
  exact ⟨touches ++ more, List.forall_mem_append.mpr ⟨hTouches, hMore⟩, hFirst.trans hSecond⟩

/-- At the place of an icon, a file is what it was. -/
theorem node_iff (h : ChangesComponents settings framework a b) (hPath : IconSource.path? root icon = some path)
    (hLocate : b.locate path = .ok here) :
    b.node? here = some (.file markup) ↔ a.node? here = some (.file markup) := by
  obtain ⟨touches, hTouches, hChanges⟩ := h
  rcases hChanges.node here with hSame | ⟨hNone, hMade⟩ | ⟨touch, hTouch, -, hLed⟩
  · rw [hSame]
  · simp [hNone, hMade]
  · obtain ⟨name, hName⟩ := hTouches touch hTouch
    rw [hName] at hLed
    exact absurd rfl (place_ne_of_icon hPath hLocate hLed)

/-- No icon is lost. -/
theorem fetch (h : ChangesComponents settings framework a b) (hFetch : IconSource.fetch a root icon = .ok markup) :
    IconSource.fetch b root icon = .ok markup := by
  obtain ⟨path, hPath, hRead⟩ := IconSource.fetch_eq_ok.mp hFetch
  obtain ⟨here, hLocate, hNode⟩ := Store.readText_eq_ok.mp hRead
  obtain ⟨touches, -, hChanges⟩ := id h
  have hLed := hChanges.locate hLocate
  exact IconSource.fetch_eq_ok.mpr
    ⟨path, hPath, Store.readText_eq_ok.mpr ⟨here, hLed, (h.node_iff hPath hLed).mpr hNode⟩⟩

end ChangesComponents

/-- A file that is written is the only one that changes. -/
theorem Writes.changesAt (h : Writes path text a b) : a.ChangesAt [.write path] b := by
  have hChanges := changesAt_writeFile path text ⟨a, []⟩
  have hRun := h []
  rw [Gives] at hRun
  rwa [hRun] at hChanges

/-- If it is the file of a component, components are all that changes. -/
theorem changesComponents_of_writes (h : Writes (componentPath settings framework name) text a b) :
    ChangesComponents settings framework a b :=
  ⟨_, by simp [Touch.path], h.changesAt⟩

/-- While the markup of icons is the same, so are their components. -/
theorem SameIcons.componentOf (h : SameIcons settings icons a b) (hIcon : icon ∈ icons) (framework : Framework) :
    (componentOf settings framework b icon).toOption = (componentOf settings framework a icon).toOption := by
  have hSame := h icon hIcon
  rw [Command.componentOf, Command.componentOf]
  cases hb : IconSource.fetch b settings.iconsDirectory icon <;>
    cases ha : IconSource.fetch a settings.iconsDirectory icon <;> simp_all [Except.toOption]

/-- What is the same at the beginning and at the end is the same all the while. -/
theorem SameIcons.between (h : SameIcons settings icons a c) (hab : ChangesComponents settings framework a b)
    (hbc : ChangesComponents settings framework b c) : SameIcons settings icons a b := by
  intro icon hIcon
  have hSame := h icon hIcon
  cases ha : IconSource.fetch a settings.iconsDirectory icon with
  | ok markup => rw [hab.fetch ha]
  | error e =>
      rw [ha] at hSame
      cases hb : IconSource.fetch b settings.iconsDirectory icon with
      | error e => rfl
      | ok markup =>
          rw [hbc.fetch hb] at hSame
          cases hSame

/-- The path of an icon goes down from the directory of icons, which is found where it was, or from where any path
begins. -/
theorem exists_follow_of_path (hDirectory : ∀ home, b.locate root = .ok home → a.locate root = .ok home)
    (hPath : IconSource.path? root icon = some path) (hLocate : b.locate path = .ok here) :
    ∃ pieces below middle, Text.splitAtChar '/' path = pieces ++ below ∧ ['.', '.'] ∉ below ∧
      a.follow pieces (a.start path) = .ok middle := by
  rw [IconSource.path?] at hPath
  split at hPath
  · rename_i hValid
    obtain rfl := Option.some.inj hPath
    obtain ⟨hNonempty, -, -, hDots⟩ := IconSource.isValidName_iff.mp hValid
    have hDown := IconSource.upward_not_mem hDots
    by_cases hWhole : Path.isAbsolute (IconSource.fileName icon) || root.isEmpty
    · have hJoin : Path.join root (IconSource.fileName icon) = IconSource.fileName icon := if_pos hWhole
      exact ⟨[], _, _, congrArg (Text.splitAtChar '/') hJoin, hDown, rfl⟩
    · rw [Bool.or_eq_true, not_or, Bool.not_eq_true, List.isEmpty_iff] at hWhole
      obtain ⟨hRelative, hRoot⟩ := hWhole
      obtain ⟨home, hHome⟩ := Store.exists_locate_of_join hRoot hRelative hLocate
      obtain ⟨pieces, hSplit, hLed⟩ := Store.exists_follow_of_join (hDirectory home hHome) hRelative
      rw [Store.start, ← Path.isAbsolute_join hRoot hRelative] at hLed
      exact ⟨pieces, _, home, hSplit, hDown, hLed⟩
  · cases hPath

/-- Where the directory of icons is found at the end only if it was at the beginning, the icons are the same. -/
theorem sameIcons_of_rooted (rooted : a.Rooted)
    (hDirectory : ∀ home, b.locate settings.iconsDirectory = .ok home → a.locate settings.iconsDirectory = .ok home)
    (h : ChangesComponents settings framework a b) : SameIcons settings icons a b := by
  intro icon _
  cases hb : IconSource.fetch b settings.iconsDirectory icon with
  | error e =>
      cases ha : IconSource.fetch a settings.iconsDirectory icon with
      | error e => rfl
      | ok markup => exact nomatch (h.fetch ha).symm.trans hb
  | ok markup =>
      suffices ha : IconSource.fetch a settings.iconsDirectory icon = .ok markup by rw [ha]
      obtain ⟨path, hPath, hRead⟩ := IconSource.fetch_eq_ok.mp hb
      obtain ⟨there, hLocate, hFile⟩ := Store.readText_eq_ok.mp hRead
      have hThere := (h.node_iff hPath hLocate).mp hFile
      refine IconSource.fetch_eq_ok.mpr ⟨path, hPath, Store.readText_eq_ok.mpr ⟨there, ?_, hThere⟩⟩
      obtain ⟨touches, -, hChanges⟩ := h
      obtain ⟨hNul, hNonempty, hLength, hFollow⟩ := Store.locate_eq_ok.mp hLocate
      have hStart : b.start path = a.start path := by rw [Store.start, Store.start, hChanges.base]
      rw [hStart] at hFollow
      obtain ⟨pieces, below, middle, hSplit, hDown, hLed⟩ := exists_follow_of_path hDirectory hPath hLocate
      rw [hSplit, Store.follow_append_eq_ok] at hFollow
      obtain ⟨same, hSame, hBelow⟩ := hFollow
      obtain rfl := Except.ok.inj ((hChanges.follow hLed).symm.trans hSame)
      refine Store.locate_eq_ok.mpr ⟨hNul, hNonempty, hLength, ?_⟩
      rw [hSplit, Store.follow_append_eq_ok]
      exact ⟨middle, hLed, rooted.follow_of_file hDown hBelow hFile hThere⟩

end

end Command

end IconRegistry
