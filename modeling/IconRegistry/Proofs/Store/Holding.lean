import IconRegistry.Proofs.Registry.Listing
import IconRegistry.Proofs.Store.Placing
import Mathlib.Data.List.Nodup
import Mathlib.Tactic.Choose

/-! Directories of component files. Such a directory holds a set of names, one file for each; a file that is written or
removed there changes the set by one name. -/
namespace IconRegistry

namespace Store

def filesIn (store : Store) (home : Location) : List Text :=
  ((store.filesBelow home).filter (·.length == 1)).flatten

/-- The name of the file in a directory that a node of a store is, if it is one. -/
def fileAt? (home : Location) (entry : Location × Node) : Option Text :=
  if entry.2 = .directory then none
  else if home ++ entry.1.drop home.length = entry.1 then
    match entry.1.drop home.length with
    | [name] => some name
    | _ => none
  else none

/-- A file of a directory stands one name below it. -/
theorem fileAt?_eq_some {home : Location} {entry : Location × Node} {name : Text} :
    fileAt? home entry = some name ↔ entry.1 = home ++ [name] ∧ entry.2 ≠ .directory := by
  obtain ⟨here, node⟩ := entry
  simp only [fileAt?]
  by_cases hNode : node = .directory
  · simp [hNode]
  · by_cases hPrefix : home ++ here.drop home.length = here
    · rw [if_neg hNode, if_pos hPrefix]
      generalize here.drop home.length = below at hPrefix
      subst hPrefix
      cases below with
      | nil => simp
      | cons first rest => cases rest <;> simp [hNode]
    · have hOther : here ≠ home ++ [name] := by
        rintro rfl
        simp at hPrefix
      simp [hNode, hPrefix, hOther]

/-- The files of a directory are picked from the nodes one by one. -/
theorem filesIn_eq_filterMap (store : Store) (home : Location) :
    store.filesIn home = store.nodes.filterMap (fileAt? home) := by
  rw [filesIn, filesBelow]
  induction store.nodes with
  | nil => rfl
  | cons entry rest ih =>
      cases hFile : fileAt? home entry with
      | some name =>
          obtain ⟨here, node⟩ := entry
          obtain ⟨rfl, hNode⟩ : here = home ++ [name] ∧ node ≠ .directory := fileAt?_eq_some.mp hFile
          have hPrefix : home.isPrefixOf (home ++ [name]) = true := by simp
          simp [hFile, ← ih, hPrefix, hNode]
      | none =>
          rw [List.filterMap_cons_none hFile, ← ih, List.filter_cons]
          split
          · rename_i hBelow
            obtain ⟨here, node⟩ := entry
            simp only [Bool.and_eq_true, bne_iff_ne, ne_eq] at hBelow
            obtain ⟨⟨hPrefix, hOther⟩, hNode⟩ := hBelow
            obtain ⟨below, rfl⟩ := List.isPrefixOf_iff_prefix.mp hPrefix
            have hLength : below.length ≠ 1 := by
              intro hOne
              obtain ⟨name, rfl⟩ := List.length_eq_one_iff.mp hOne
              rw [fileAt?_eq_some.mpr ⟨rfl, hNode⟩] at hFile
              cases hFile
            simp [hLength]
          · rfl

/-- A file that is left out of the nodes is left out of the files. -/
theorem filterMap_fileAt?_filter (nodes : List (Location × Node)) (home : Location) (name : Text) :
    (nodes.filter (·.1 != home ++ [name])).filterMap (fileAt? home) =
      (nodes.filterMap (fileAt? home)).filter (· != name) := by
  rw [List.filterMap_filter, List.filter_filterMap]
  congr 1
  funext entry
  cases hFile : fileAt? home entry with
  | none => simp
  | some other =>
      obtain ⟨hHere, -⟩ := fileAt?_eq_some.mp hFile
      by_cases hName : other = name <;> simp [hHere, hName, Option.filter]

/-- A file that is put into a directory takes the place of one with its name. -/
theorem filesIn_put (store : Store) (home : Location) (name : Text) {node : Node} (h : node ≠ .directory) :
    (store.put (home ++ [name]) node).filesIn home = name :: (store.filesIn home).filter (· != name) := by
  have hFile : fileAt? home (home ++ [name], node) = some name := fileAt?_eq_some.mpr ⟨rfl, h⟩
  rw [filesIn_eq_filterMap, filesIn_eq_filterMap, put, List.filterMap_cons_some hFile, filterMap_fileAt?_filter]

/-- Taking a file away takes it from its directory's files. -/
theorem filesIn_erase (store : Store) (home : Location) (name : Text) :
    (store.erase (home ++ [name])).filesIn home = (store.filesIn home).filter (· != name) := by
  rw [filesIn_eq_filterMap, filesIn_eq_filterMap, erase, filterMap_fileAt?_filter]

end Store

namespace ComponentFile

open Registry Store

section

variable {directory name extension : Text}

/-- The path of a component ends in its file. -/
theorem fileName?_pathOf (h : IsExtension extension) (hName : '/' ∉ name) :
    Path.fileName? (pathOf directory name extension) = some (name ++ '.' :: extension) := by
  rw [Path.fileName?, splitAtChar_pathOf h hName]
  simp [h.not_idle, h.not_upward]

theorem splitExtension?_append (h : IsExtension extension) (hName : name ≠ []) :
    Path.splitExtension? (name ++ '.' :: extension) = some (name, extension) := by
  obtain ⟨front, c, rfl⟩ := (List.eq_nil_or_concat name).resolve_left hName
  have hBefore : ∀ d ∈ extension.reverse, (d != '.') = true := by
    intro d hd
    rw [bne_iff_ne]
    rintro rfl
    exact h.dot (List.mem_reverse.mp hd)
  have hText : (front.concat c ++ '.' :: extension).reverse = extension.reverse ++ '.' :: c :: front.reverse := by
    simp
  rw [Path.splitExtension?, hText, List.dropWhile_append_of_pos hBefore, List.takeWhile_append_of_pos hBefore]
  simp

theorem extension?_pathOf (h : IsExtension extension) (hName : '/' ∉ name) (hNonempty : name ≠ []) :
    Path.extension? (pathOf directory name extension) = some extension := by
  simp [Path.extension?, fileName?_pathOf h hName, splitExtension?_append h hNonempty]

/-- The stem of a component's path is the component's name. -/
theorem stem?_pathOf (h : IsExtension extension) (hName : '/' ∉ name) (hNonempty : name ≠ []) :
    Path.stem? (pathOf directory name extension) = some name := by
  simp [Path.stem?, fileName?_pathOf h hName, splitExtension?_append h hNonempty]

end

def filesOf (store : Store) (directory extension : Text) (home : Location) : List Text :=
  (store.filesIn home).filter fun file => Path.extension? (Path.join directory file) == some extension

/-- A directory holds component files: one for each registered name, and no others. -/
structure Holds (store : Store) (directory extension : Text) (home : Location) (names : Names) : Prop where
  located : store.locate directory = .ok home
  isDirectory : store.node? home = some .directory
  proper : ∀ name, names name = true → name ≠ [] ∧ '/' ∉ name
  present : ∀ name, names name = true →
    store.locate (pathOf directory name extension) = .ok (home ++ [name ++ '.' :: extension]) ∧
      ∃ node, store.node? (home ++ [name ++ '.' :: extension]) = some node ∧ node ≠ .directory
  nodup : (filesOf store directory extension home).Nodup
  mem_iff : ∀ file, file ∈ filesOf store directory extension home ↔
    ∃ name, names name = true ∧ file = name ++ '.' :: extension

section

variable {store : Store} {directory extension name : Text} {home here : Location} {names : Names}

/-- The pieces of a directory's path, without an idle one at its end, lead there. -/
theorem follow_piecesTo (hLocated : store.locate directory = .ok home) :
    store.follow (piecesTo directory) (store.start directory) = .ok home := by
  obtain ⟨-, hNonempty, -, hFollow⟩ := locate_eq_ok.mp hLocated
  rw [piecesTo, if_neg hNonempty]
  split
  · rename_i hSlash
    obtain ⟨front, rfl⟩ := List.getLast?_eq_some_iff.mp hSlash
    have hPieces : Text.splitAtChar '/' (front ++ ['/']) = Text.splitAtChar '/' front ++ [[]] :=
      Text.splitAtChar_append '/' front []
    rw [hPieces] at hFollow ⊢
    obtain ⟨middle, hFront, hRest⟩ := follow_append_eq_ok.mp hFollow
    obtain rfl := eq_of_follow_idle (by simp [Path.isIdle]) hRest
    rwa [List.dropLast_concat]
  · exact hFollow

/-- The path of a component leads to its file in the directory. -/
theorem eq_of_locate_pathOf (h : IsExtension extension) (hLocated : store.locate directory = .ok home)
    (hName : '/' ∉ name) (hLocate : store.locate (pathOf directory name extension) = .ok here) :
    here = home ++ [name ++ '.' :: extension] := by
  obtain ⟨home', hHome', -, rfl⟩ := exists_home h hName hLocate
  rw [Except.ok.inj (hHome'.symm.trans (follow_piecesTo hLocated))]

/-- The component files of a directory are its files with the extension, in order. -/
theorem all_eq (hLocated : store.locate directory = .ok home) (hHome : store.node? home = some .directory) :
    all store directory extension =
      ((Text.sorted (store.filesIn home)).filter fun file =>
        Path.extension? (Path.join directory file) == some extension).map (Path.join directory) := by
  simp only [all, hLocated, hHome]
  rw [List.filter_map]
  rfl

/-- Sorting the files changes their order only. -/
theorem sorted_filesOf_perm (store : Store) (directory extension : Text) (home : Location) :
    ((Text.sorted (store.filesIn home)).filter fun file =>
      Path.extension? (Path.join directory file) == some extension).Perm (filesOf store directory extension home) :=
  (List.mergeSort_perm _ _).filter _

/-- A directory without component files holds no names. -/
theorem holds_nothing (hLocated : store.locate directory = .ok home) (hHome : store.node? home = some .directory)
    (hNone : all store directory extension = []) : Holds store directory extension home fun _ => false := by
  rw [all_eq hLocated hHome, List.map_eq_nil_iff] at hNone
  have hFiles : filesOf store directory extension home = [] := by
    have hPerm := sorted_filesOf_perm store directory extension home
    rw [hNone] at hPerm
    exact List.nil_perm.mp hPerm
  exact ⟨hLocated, hHome, by simp, by simp, by simp [hFiles], by simp [hFiles]⟩

/-- A component file that is written is one of the files, and it is one of them once. -/
theorem filesOf_put (h : IsExtension extension) (hName : '/' ∉ name) (hNonempty : name ≠ []) (text : Text) :
    filesOf (store.put (home ++ [name ++ '.' :: extension]) (.file text)) directory extension home =
      (name ++ '.' :: extension) ::
        (filesOf store directory extension home).filter (· != name ++ '.' :: extension) := by
  have hExtension : Path.extension? (Path.join directory (name ++ '.' :: extension)) = some extension :=
    extension?_pathOf h hName hNonempty
  rw [filesOf, filesIn_put _ _ _ (by simp), List.filter_cons, hExtension, beq_self_eq_true, if_pos rfl, filesOf,
    List.filter_comm]

/-- A component file that is taken away is none of the files. -/
theorem filesOf_erase (name : Text) :
    filesOf (store.erase (home ++ [name ++ '.' :: extension])) directory extension home =
      (filesOf store directory extension home).filter (· != name ++ '.' :: extension) := by
  rw [filesOf, filesIn_erase, filesOf, List.filter_comm]

namespace Holds

/-- The component files are those of the registered names, in some order. -/
theorem exists_all (h : Holds store directory extension home names) :
    ∃ registered : List Text, all store directory extension = registered.map (pathOf directory · extension) ∧
      registered.Nodup ∧ ∀ name, name ∈ registered ↔ names name = true := by
  rw [all_eq h.located h.isDirectory]
  have hPerm := sorted_filesOf_perm store directory extension home
  generalize (Text.sorted (store.filesIn home)).filter _ = files at hPerm ⊢
  have hMem : ∀ file, file ∈ files ↔ ∃ name, names name = true ∧ file = name ++ '.' :: extension :=
    fun file => hPerm.mem_iff.trans (h.mem_iff file)
  choose! stem hRegistered hStem using fun file => (hMem file).mp
  refine ⟨files.map stem, ?_, ?_, fun name => ?_⟩
  · rw [List.map_map]
    exact List.map_congr_left fun file hFile => congrArg (Path.join directory) (hStem file hFile)
  · refine List.Nodup.map_on (fun file hFile other hOther hSame => ?_) (hPerm.nodup_iff.mpr h.nodup)
    rw [hStem file hFile, hStem other hOther, hSame]
  · rw [List.mem_map]
    constructor
    · rintro ⟨file, hFile, rfl⟩
      exact hRegistered file hFile
    · intro hName
      have hFile := (hMem _).mpr ⟨name, hName, rfl⟩
      exact ⟨_, hFile, List.append_cancel_right (hStem _ hFile).symm⟩

/-- A store contains the components that it holds. -/
theorem contains (h : Holds store directory extension home names) (hName : names name = true) :
    store.contains (pathOf directory name extension) = true := by
  obtain ⟨hLocate, node, hNode, -⟩ := h.present name hName
  exact contains_iff.mpr ⟨_, node, hLocate, hNode⟩

/-- In the place of a registered name is a file. -/
theorem not_directory (h : Holds store directory extension home names) (hName : names name = true) :
    store.node? (home ++ [name ++ '.' :: extension]) ≠ some .directory := by
  obtain ⟨-, node, hFound, hFile⟩ := h.present name hName
  rw [hFound]
  exact fun hSame => hFile (Option.some.inj hSame)

/-- A file that is written registers its name. -/
theorem put (h : Holds store directory extension home names) (hExtension : IsExtension extension) (hName : '/' ∉ name)
    (hNonempty : name ≠ [])
    (hLocate : store.locate (pathOf directory name extension) = .ok (home ++ [name ++ '.' :: extension]))
    (hNode : store.node? (home ++ [name ++ '.' :: extension]) ≠ some .directory) (text : Text) :
    Holds (store.put (home ++ [name ++ '.' :: extension]) (.file text)) directory extension home
      (names.set name true) := by
  have hSame := sameDirectories_put hNode text
  refine ⟨hSame.locate_iff.mpr h.located, (hSame.node home).mpr h.isDirectory, ?_, ?_, ?_, ?_⟩
  · intro other hOther
    rcases Names.of_set hOther with ⟨rfl, -⟩ | ⟨-, hBefore⟩
    · exact ⟨hNonempty, hName⟩
    · exact h.proper other hBefore
  · intro other hOther
    rcases Names.of_set hOther with ⟨rfl, -⟩ | ⟨hEq, hBefore⟩
    · exact ⟨hSame.locate_iff.mpr hLocate, .file text, node?_put_same (by simp) _, by simp⟩
    · obtain ⟨hThere, node, hFound, hFile⟩ := h.present other hBefore
      refine ⟨hSame.locate_iff.mpr hThere, node, ?_, hFile⟩
      rw [node?_put_of_ne _ (by simpa using hEq), hFound]
  · rw [filesOf_put hExtension hName hNonempty]
    exact List.nodup_cons.mpr ⟨by simp, h.nodup.filter _⟩
  · intro file
    rw [filesOf_put hExtension hName hNonempty, List.mem_cons, List.mem_filter, h.mem_iff, bne_iff_ne]
    constructor
    · rintro (rfl | ⟨⟨other, hOther, rfl⟩, hNe⟩)
      · exact ⟨name, by simp, rfl⟩
      · exact ⟨other, by rwa [Names.set_of_ne names (by simpa using hNe)], rfl⟩
    · rintro ⟨other, hOther, rfl⟩
      rcases Names.of_set hOther with ⟨rfl, -⟩ | ⟨hEq, hBefore⟩
      · exact .inl rfl
      · exact .inr ⟨⟨other, hBefore, rfl⟩, by simpa using hEq⟩

/-- A file that is removed takes its name along. -/
theorem erase (h : Holds store directory extension home names) (hName : names name = true) :
    Holds (store.erase (home ++ [name ++ '.' :: extension])) directory extension home (names.set name false) := by
  have hSame := sameDirectories_erase (h.not_directory hName)
  have hKept : ∀ other, names.set name false other = true → other ≠ name ∧ names other = true :=
    fun other hOther => (Names.of_set hOther).resolve_left (by simp)
  refine ⟨hSame.locate_iff.mpr h.located, (hSame.node home).mpr h.isDirectory, ?_, ?_, ?_, ?_⟩
  · exact fun other hOther => h.proper other (hKept other hOther).2
  · intro other hOther
    obtain ⟨hEq, hStays⟩ := hKept other hOther
    obtain ⟨hThere, node, hFound, hFile⟩ := h.present other hStays
    refine ⟨hSame.locate_iff.mpr hThere, node, ?_, hFile⟩
    rw [node?_erase_of_ne _ (by simpa using hEq), hFound]
  · rw [filesOf_erase]
    exact h.nodup.filter _
  · intro file
    rw [filesOf_erase, List.mem_filter, h.mem_iff, bne_iff_ne]
    constructor
    · rintro ⟨⟨other, hOther, rfl⟩, hNe⟩
      exact ⟨other, by rwa [Names.set_of_ne names (by simpa using hNe)], rfl⟩
    · rintro ⟨other, hOther, rfl⟩
      obtain ⟨hEq, hStays⟩ := hKept other hOther
      exact ⟨⟨other, hStays, rfl⟩, by simpa using hEq⟩

end Holds

end

end ComponentFile

end IconRegistry
