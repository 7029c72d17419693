import IconRegistry.Proofs.Registry.NameOrder
import IconRegistry.Proofs.Store.Holding

/-! The component files of a directory, one after the other. In a store with one thing at each location and a name
for each, a directory shows every component once, and a file that is erased takes one name along. -/
namespace IconRegistry

/-- What is left out before texts are ordered may as well be left out behind. -/
theorem Text.sorted_filter (keep : Text → Bool) (texts : List Text) :
    Text.sorted (texts.filter keep) = (Text.sorted texts).filter keep := by
  have hTrans : ∀ a b c : Text, (Text.order a b != .gt) = true → (Text.order b c != .gt) = true →
      (Text.order a c != .gt) = true := by
    intro a b c hab hbc
    simp only [bne_iff_ne, ne_eq, Ordering.ne_gt_iff_isLE] at *
    exact Std.TransCmp.isLE_trans hab hbc
  have hTotal : ∀ a b : Text, (Text.order a b != .gt || Text.order b a != .gt) = true := by
    intro a b
    have hSwap : Text.order b a = (Text.order a b).swap := Std.OrientedCmp.eq_swap
    rw [hSwap]
    cases Text.order a b <;> rfl
  have hOrdered : ∀ texts : List Text, (Text.sorted texts).Pairwise fun a b => (Text.order a b != .gt) = true :=
    fun texts => List.pairwise_mergeSort hTrans hTotal texts
  have hPerm : (Text.sorted (texts.filter keep)).Perm ((Text.sorted texts).filter keep) :=
    (List.mergeSort_perm _ _).trans ((List.mergeSort_perm _ _).filter keep).symm
  refine hPerm.eq_of_pairwise (fun a b _ _ hab hba => ?_) (hOrdered _) ((hOrdered _).filter keep)
  simp only [bne_iff_ne, ne_eq, Ordering.ne_gt_iff_isLE] at hab hba
  exact Std.LawfulEqCmp.eq_of_compare (Std.OrientedCmp.isLE_antisymm hab hba)

namespace Store

/-- A name that something in a directory may have. -/
structure IsName (piece : Text) : Prop where
  slash : '/' ∉ piece
  nul : '\x00' ∉ piece
  idle : Path.isIdle piece = false
  upward : Path.isUpward piece = false
  length : Text.byteLength piece ≤ longestName

instance : DecidablePred IsName := fun piece =>
  decidable_of_iff ('/' ∉ piece ∧ '\x00' ∉ piece ∧ Path.isIdle piece = false ∧ Path.isUpward piece = false ∧
      Text.byteLength piece ≤ longestName)
    ⟨fun ⟨hSlash, hNul, hIdle, hUpward, hLength⟩ => ⟨hSlash, hNul, hIdle, hUpward, hLength⟩,
      fun h => ⟨h.slash, h.nul, h.idle, h.upward, h.length⟩⟩

/-- At each location is one thing, and there is a name for every step on the way. -/
structure Proper (store : Store) : Prop where
  nodup : (store.nodes.map (·.1)).Nodup
  named : ∀ entry ∈ store.nodes, ∀ piece ∈ entry.1, IsName piece
  base : ∀ piece ∈ store.base, IsName piece

namespace Proper

variable {store changed : Store} {home here there : Location} {path file text : Text}

/-- No place has two nodes. -/
theorem pairwise_nodes (proper : store.Proper) : store.nodes.Pairwise fun a b => a.1 ≠ b.1 :=
  List.pairwise_map.mp proper.nodup

/-! A path leads over names only, so what is made there has one. -/

/-- Pieces without slashes lead to places that are reached by names. -/
theorem named_of_follow {pieces : List Text} (hHere : ∀ piece ∈ here, IsName piece)
    (hPieces : ∀ piece ∈ pieces, '/' ∉ piece ∧ '\x00' ∉ piece) (h : store.follow pieces here = .ok there) :
    ∀ piece ∈ there, IsName piece := by
  induction pieces generalizing here with
  | nil => exact Except.ok.inj h ▸ hHere
  | cons piece rest ih =>
      obtain ⟨⟨hSlash, hNul⟩, hRest⟩ := List.forall_mem_cons.mp hPieces
      obtain ⟨-, next, hNext, hFollow⟩ := follow_cons_eq_ok.mp h
      refine ih ?_ hRest hFollow
      rw [step?] at hNext
      split_ifs at hNext with hIdle hUpward hLong
      · exact Option.some.inj hNext ▸ hHere
      · rw [← Option.some.inj hNext]
        exact fun other hOther => hHere other (List.dropLast_subset _ hOther)
      · rw [← Option.some.inj hNext, List.forall_mem_append, List.forall_mem_singleton]
        exact ⟨hHere, hSlash, hNul, by simpa using hIdle, by simpa using hUpward, Nat.not_lt.mp hLong⟩

theorem named_of_locate (proper : store.Proper) (h : store.locate path = .ok here) : ∀ piece ∈ here, IsName piece := by
  obtain ⟨hNul, -, -, hFollow⟩ := locate_eq_ok.mp h
  refine named_of_follow ?_ (fun piece hPiece => ⟨Text.not_mem_of_mem_splitAtChar hPiece, fun hMem => ?_⟩) hFollow
  · rw [start]
    split
    · simp
    · exact proper.base
  · exact hNul ((Text.infix_of_mem_splitAtChar hPiece).subset hMem)

/-- A store stays proper when a node is taken away. -/
theorem erase (proper : store.Proper) (here : Location) : (store.erase here).Proper where
  nodup := proper.nodup.sublist (List.filter_sublist.map _)
  named entry hEntry := proper.named entry (List.mem_of_mem_filter hEntry)
  base := proper.base

theorem put (proper : store.Proper) (hHere : ∀ piece ∈ here, IsName piece) (node : Node) :
    (store.put here node).Proper where
  nodup := by
    rw [Store.put, List.map_cons, List.nodup_cons]
    exact ⟨by simp, proper.nodup.sublist (List.filter_sublist.map _)⟩
  named := List.forall_mem_cons.mpr ⟨hHere, fun entry hEntry => proper.named entry (List.mem_of_mem_filter hEntry)⟩
  base := proper.base

/-- Removing a file leaves a store proper. -/
theorem removeFile (proper : store.Proper) (h : store.removeFile path = .ok changed) : changed.Proper := by
  obtain ⟨here, node, -, -, -, rfl⟩ := removeFile_eq_ok.mp h
  exact proper.erase here

theorem writeText (proper : store.Proper) (h : store.writeText path text = .ok changed) : changed.Proper := by
  obtain ⟨here, hLocate, -, rfl⟩ := (writeText_eq_ok (getLast?_of_writeText h)).mp h
  exact proper.put (proper.named_of_locate hLocate) _

/-! What a directory shows is what is there. -/

theorem nodup_filesIn (proper : store.Proper) (home : Location) : (store.filesIn home).Nodup := by
  rw [filesIn_eq_filterMap, List.Nodup, List.pairwise_filterMap]
  refine proper.pairwise_nodes.imp fun hDifferent name hName other hOther hSame => hDifferent ?_
  rw [(fileAt?_eq_some.mp hName).1, (fileAt?_eq_some.mp hOther).1, hSame]

/-- The files in a directory are the nodes there that are none. -/
theorem mem_filesIn_iff (proper : store.Proper) :
    file ∈ store.filesIn home ↔ ∃ node, store.node? (home ++ [file]) = some node ∧ node ≠ .directory := by
  have hNode : ∀ node, store.node? (home ++ [file]) = some node ↔ (home ++ [file], node) ∈ store.nodes := by
    intro node
    have hRoot : (home ++ [file]).isEmpty = false := by simp
    simp only [node?, hRoot, Bool.false_eq_true, if_false, List.lookup_eq_some_iff]
    constructor
    · rintro ⟨front, rest, hSplit, -⟩
      simp [hSplit]
    · intro hMem
      obtain ⟨front, rest, hSplit⟩ := List.append_of_mem hMem
      refine ⟨front, rest, hSplit, fun entry hEntry => ?_⟩
      have hPairs := hSplit ▸ proper.pairwise_nodes
      simpa using (((List.pairwise_append.mp hPairs).2.2 entry hEntry _ (List.mem_cons_self ..)).symm)
  simp only [filesIn_eq_filterMap, List.mem_filterMap, fileAt?_eq_some, hNode]
  constructor
  · rintro ⟨⟨here, node⟩, hEntry, rfl, hFile⟩
    exact ⟨node, hEntry, hFile⟩
  · rintro ⟨node, hEntry, hFile⟩
    exact ⟨_, hEntry, rfl, hFile⟩

theorem isName_of_mem_filesIn (proper : store.Proper) (h : file ∈ store.filesIn home) : IsName file := by
  rw [filesIn_eq_filterMap] at h
  obtain ⟨entry, hEntry, hFile⟩ := List.mem_filterMap.mp h
  refine proper.named entry hEntry file ?_
  rw [(fileAt?_eq_some.mp hFile).1]
  simp

end Proper

end Store

namespace ComponentFile

open Store

/-- The name of a component whose file has a certain name, if such a file holds a component. -/
def component? (extension file : Text) : Option Text :=
  ((Path.splitExtension? file).filter (·.2 == extension)).map (·.1)

def componentsIn (store : Store) (directory extension : Text) : List Text :=
  (all store directory extension).filterMap Path.stem?

/-- A name in front of the last dot is not empty. -/
theorem splitExtension?_eq_some {file name extension : Text} (h : Path.splitExtension? file = some (name, extension)) :
    name ≠ [] ∧ file = name ++ '.' :: extension := by
  have hParts := List.takeWhile_append_dropWhile (p := (· != '.')) (l := file.reverse)
  rw [Path.splitExtension?] at h
  split at h
  · rename_i dot c stem hBehind
    obtain ⟨rfl, rfl⟩ := Prod.mk.inj (Option.some.inj h)
    obtain rfl : dot = '.' := by
      have hDot := List.head?_dropWhile_not (p := (· != '.')) (l := file.reverse)
      simpa [hBehind] using hDot
    rw [hBehind] at hParts
    have hFile := congrArg List.reverse hParts
    rw [List.reverse_reverse] at hFile
    exact ⟨by simp, hFile.symm.trans (by simp)⟩
  · cases h

section

variable {store : Store} {directory extension name file other : Text} {home : Location}

/-- The component of a file is what stands in front of its extension. -/
theorem component?_eq_some (hExtension : IsExtension extension) :
    component? extension file = some name ↔ name ≠ [] ∧ file = name ++ '.' :: extension := by
  constructor
  · intro h
    obtain ⟨⟨stem, behind⟩, hSplit, rfl⟩ := Option.map_eq_some_iff.mp h
    obtain ⟨hParts, hSame⟩ := Option.filter_eq_some_iff.mp hSplit
    obtain rfl : behind = extension := by simpa using hSame
    exact splitExtension?_eq_some hParts
  · rintro ⟨hName, rfl⟩
    simp [component?, splitExtension?_append hExtension hName, Option.filter]

/-- The last piece of a path is the file that was joined. -/
theorem fileName?_join (hDirectory : directory ≠ []) (hFile : IsName file) :
    Path.fileName? (Path.join directory file) = some file := by
  have hRelative : Path.isAbsolute file = false := by
    cases file with
    | nil => rfl
    | cons c rest =>
        have hSlash := hFile.slash
        simp only [List.mem_cons, not_or] at hSlash
        simpa [Path.isAbsolute] using Ne.symm hSlash.1
  obtain ⟨pieces, -, hSplit, -⟩ := Path.splitAtChar_join hDirectory hRelative
  rw [Path.fileName?, hSplit, Text.splitAtChar_of_not_mem hFile.slash]
  simp [hFile.idle, hFile.upward, Option.filter]

/-- The components of a directory, told from the names of its files alone. -/
theorem componentsIn_eq (proper : store.Proper) (hLocated : store.locate directory = .ok home)
    (hHome : store.node? home = some .directory) :
    componentsIn store directory extension = (Text.sorted (store.filesIn home)).filterMap (component? extension) := by
  obtain ⟨-, hDirectory, -, -⟩ := locate_eq_ok.mp hLocated
  rw [componentsIn, all_eq hLocated hHome, List.filterMap_map, List.filterMap_filter]
  refine List.filterMap_congr fun file hFile => ?_
  have hName := proper.isName_of_mem_filesIn ((List.mergeSort_perm _ _).mem_iff.mp hFile)
  simp only [Function.comp_apply, Path.extension?, Path.stem?, fileName?_join hDirectory hName, component?]
  cases hSplit : Path.splitExtension? file with
  | none => simp [hSplit]
  | some parts => by_cases hSame : parts.2 = extension <;> simp [hSplit, hSame, Option.filter]

/-- Where nothing is in the place of a directory, there are no components. -/
theorem componentsIn_eq_nil (h : ∀ home, store.locate directory = .ok home → store.node? home = none) :
    componentsIn store directory extension = [] := by
  rw [componentsIn, all]
  cases hLocate : store.locate directory with
  | error e => rfl
  | ok home => simp [h home hLocate]

/-- The components in a directory are those whose files are there. -/
theorem mem_componentsIn_iff (proper : store.Proper) (hExtension : IsExtension extension)
    (hLocated : store.locate directory = .ok home) (hHome : store.node? home = some .directory) :
    name ∈ componentsIn store directory extension ↔ name ≠ [] ∧ name ++ '.' :: extension ∈ store.filesIn home := by
  simp only [componentsIn_eq proper hLocated hHome, List.mem_filterMap, component?_eq_some hExtension, Text.sorted,
    (List.mergeSort_perm _ _).mem_iff]
  constructor
  · rintro ⟨file, hFile, hName, rfl⟩
    exact ⟨hName, hFile⟩
  · rintro ⟨hName, hFile⟩
    exact ⟨_, hFile, hName, rfl⟩

/-- No component is listed twice. -/
theorem nodup_componentsIn (proper : store.Proper) (hExtension : IsExtension extension)
    (hLocated : store.locate directory = .ok home) (hHome : store.node? home = some .directory) :
    (componentsIn store directory extension).Nodup := by
  rw [componentsIn_eq proper hLocated hHome]
  refine List.Nodup.filterMap (fun file file' name hName hName' => ?_)
    ((List.mergeSort_perm _ _).nodup_iff.mpr (proper.nodup_filesIn home))
  rw [((component?_eq_some hExtension).mp hName).2, ((component?_eq_some hExtension).mp hName').2]

/-- A file that is erased takes the name of its component along. -/
theorem componentsIn_erase (proper : store.Proper) (hExtension : IsExtension extension)
    (hLocated : store.locate directory = .ok home) (hHome : store.node? home = some .directory)
    (hFile : store.node? (home ++ [other ++ '.' :: extension]) ≠ some .directory) :
    componentsIn (store.erase (home ++ [other ++ '.' :: extension])) directory extension =
      (componentsIn store directory extension).erase other := by
  have hSame := sameDirectories_erase hFile
  rw [(nodup_componentsIn proper hExtension hLocated hHome).erase_eq_filter, componentsIn_eq proper hLocated hHome,
    componentsIn_eq (proper.erase _) (hSame.locate_iff.mpr hLocated) ((hSame.node home).mpr hHome), filesIn_erase,
    Text.sorted_filter, List.filterMap_filter, List.filter_filterMap]
  refine List.filterMap_congr fun file _ => ?_
  cases hName : component? extension file with
  | none => simp
  | some name =>
      obtain ⟨-, rfl⟩ := (component?_eq_some hExtension).mp hName
      by_cases hOther : name = other <;> simp [hOther, Option.filter]

/-- The path of a component in a directory leads to its file unless it is too long. -/
theorem locate_pathOf_iff (proper : store.Proper) (hExtension : IsExtension extension)
    (hLocated : store.locate directory = .ok home) (hHome : store.node? home = some .directory)
    (hName : name ∈ componentsIn store directory extension) :
    store.locate (pathOf directory name extension) = .ok (home ++ [name ++ '.' :: extension]) ↔
      Text.byteLength (pathOf directory name extension) ≤ longestPath := by
  obtain ⟨-, hMember⟩ := (mem_componentsIn_iff proper hExtension hLocated hHome).mp hName
  have hIsName := proper.isName_of_mem_filesIn hMember
  have hSlash : '/' ∉ name := fun hMem => hIsName.slash (List.mem_append_left _ hMem)
  have entry : Path.EntryIn (pathOf directory name extension) (piecesTo directory) (name ++ '.' :: extension) :=
    entryIn_pathOf hExtension hSlash
  obtain ⟨hNul, hDirectory, -, -⟩ := locate_eq_ok.mp hLocated
  have hStep : step? (name ++ '.' :: extension) home = some (home ++ [name ++ '.' :: extension]) := by
    simp [step?, hIsName.idle, hIsName.upward, Nat.not_lt.mpr hIsName.length]
  have hFollow : store.follow (Text.splitAtChar '/' (pathOf directory name extension))
      (store.start (pathOf directory name extension)) = .ok (home ++ [name ++ '.' :: extension]) := by
    rw [start_pathOf hSlash, entry.split, follow_append_eq_ok]
    exact ⟨home, follow_piecesTo hLocated, follow_cons_eq_ok.mpr ⟨hHome, _, hStep, rfl⟩⟩
  have hNulPath : '\x00' ∉ pathOf directory name extension := by
    rw [pathOf, Path.join]
    have hNulName := hIsName.nul
    split_ifs <;> simp_all
  have hNonempty : pathOf directory name extension ≠ [] := by
    rw [pathOf, Path.join]
    split_ifs <;> simp
  exact ⟨fun h => (locate_eq_ok.mp h).2.2.1, fun h => locate_eq_ok.mpr ⟨hNulPath, hNonempty, h, hFollow⟩⟩

end

end ComponentFile

end IconRegistry
