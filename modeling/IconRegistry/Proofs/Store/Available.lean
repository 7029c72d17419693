import IconRegistry.Proofs.Store.Enumerating
import IconRegistry.Proofs.Store.Fetching
import Mathlib.Data.List.Induction

/-! The icons that a directory lists. A listed name is the path of a file below the directory without its extension, and
unless fetching refuses the name, it leads back to that file. -/
namespace IconRegistry

open IconRegistry.Path

/-- Names joined with slashes are a relative path. -/
theorem Path.isAbsolute_join_names {pieces : List Text} (h : ∀ piece ∈ pieces, Store.IsName piece) :
    isAbsolute (Text.join ['/'] pieces) = false := by
  cases pieces with
  | nil => rfl
  | cons piece rest =>
      have hPiece := h piece List.mem_cons_self
      cases piece with
      | nil => exact absurd hPiece.idle (by decide)
      | cons c front =>
          have hSlash := hPiece.slash
          rw [List.mem_cons, not_or] at hSlash
          cases rest <;> simpa [Text.join, isAbsolute] using Ne.symm hSlash.1

namespace Store

/-- A store in which everything is in a directory. -/
def Rooted (store : Store) : Prop :=
  ∀ home name, (store.node? (home ++ [name])).isSome = true → store.node? home = some .directory

section

variable {store : Store} {home here : Location} {below : Location} {root : Text}

/-- The files below a directory are the nodes there that are none. -/
theorem mem_filesBelow_iff :
    below ∈ store.filesBelow home ↔ below ≠ [] ∧ ∃ node, (home ++ below, node) ∈ store.nodes ∧ node ≠ .directory := by
  simp only [filesBelow, List.mem_map, List.mem_filter, Bool.and_eq_true, List.isPrefixOf_iff_prefix, bne_iff_ne, ne_eq]
  constructor
  · rintro ⟨⟨there, node⟩, ⟨hEntry, ⟨⟨more, rfl⟩, hOther⟩, hFile⟩, rfl⟩
    rw [List.drop_left]
    refine ⟨?_, node, hEntry, hFile⟩
    rintro rfl
    exact hOther (List.append_nil _)
  · rintro ⟨hBelow, node, hEntry, hFile⟩
    exact ⟨_, ⟨hEntry, ⟨List.prefix_append _ _, by simpa using hBelow⟩, hFile⟩, List.drop_left⟩

/-- In a proper store, files are reached by names. -/
theorem Proper.named_of_mem_filesBelow (proper : store.Proper) (h : below ∈ store.filesBelow home) :
    ∀ piece ∈ below, IsName piece := by
  obtain ⟨-, node, hEntry, -⟩ := mem_filesBelow_iff.mp h
  exact fun piece hPiece => proper.named _ hEntry piece (List.mem_append_right _ hPiece)

/-- A store in which every node stands in a directory is rooted. -/
theorem rooted_of_nodes (h : ∀ entry ∈ store.nodes, store.node? entry.1.dropLast = some .directory) :
    store.Rooted := by
  intro home name hThere
  obtain ⟨node, hNode⟩ := Option.isSome_iff_exists.mp hThere
  have hRoot : (home ++ [name]).isEmpty = false := by simp
  rw [node?, hRoot, if_neg Bool.false_ne_true, List.lookup_eq_some_iff] at hNode
  obtain ⟨front, rest, hSplit, -⟩ := hNode
  have hAbove := h (home ++ [name], node) (by rw [hSplit]; simp)
  rwa [List.dropLast_concat] at hAbove

/-- Above something there are directories only. -/
theorem Rooted.directory_above (rooted : store.Rooted) {front rest : Location} (hRest : rest ≠ [])
    (h : (store.node? (front ++ rest)).isSome = true) : store.node? front = some .directory := by
  induction rest using List.reverseRecOn with
  | nil => exact absurd rfl hRest
  | append_singleton more name ih =>
      rw [← List.append_assoc] at h
      have hAbove := rooted _ _ h
      cases more with
      | nil => rwa [List.append_nil] at hAbove
      | cons first rest => exact ih (List.cons_ne_nil _ _) (by rw [hAbove]; rfl)

/-- Names lead to what is there. -/
theorem Rooted.follow_names (rooted : store.Rooted) (hNames : ∀ piece ∈ below, IsName piece)
    (h : (store.node? (home ++ below)).isSome = true) : store.follow below home = .ok (home ++ below) := by
  induction below generalizing home with
  | nil => rw [List.append_nil]; rfl
  | cons piece rest ih =>
      obtain ⟨hPiece, hRest⟩ := List.forall_mem_cons.mp hNames
      have hNext : home ++ piece :: rest = home ++ [piece] ++ rest := by simp
      refine follow_cons_eq_ok.mpr ⟨rooted.directory_above (List.cons_ne_nil _ _) h, home ++ [piece], ?_, ?_⟩
      · simp [step?, hPiece.idle, hPiece.upward, Nat.not_lt.mpr hPiece.length]
      · rw [hNext] at h ⊢
        exact ih hRest h

/-- A relative path below another one first leads to where that one does. -/
theorem exists_follow_of_join {below : Text} (hRoot : store.locate root = .ok home)
    (hRelative : isAbsolute below = false) :
    ∃ pieces, Text.splitAtChar '/' (join root below) = pieces ++ Text.splitAtChar '/' below ∧
      store.follow pieces (store.start root) = .ok home := by
  obtain ⟨-, hNonempty, -, hFollow⟩ := locate_eq_ok.mp hRoot
  obtain ⟨pieces, -, hSplit, hPieces⟩ := splitAtChar_join hNonempty hRelative
  refine ⟨pieces, hSplit, ?_⟩
  rcases hPieces with hSame | hMore
  · rwa [hSame] at hFollow
  · rw [hMore, follow_append_eq_ok] at hFollow
    obtain ⟨middle, hMiddle, hIdle⟩ := hFollow
    obtain rfl := eq_of_follow_idle (by simp [isIdle]) hIdle
    exact hMiddle

/-- The path of a file below a directory leads to that file, unless it is too long. -/
theorem Rooted.locate_below (rooted : store.Rooted) (hRoot : store.locate root = .ok home) (hBelow : below ≠ [])
    (hNames : ∀ piece ∈ below, IsName piece) (hThere : (store.node? (home ++ below)).isSome = true)
    (hLength : Text.byteLength (join root (Text.join ['/'] below)) ≤ longestPath) :
    store.locate (join root (Text.join ['/'] below)) = .ok (home ++ below) := by
  obtain ⟨hNul, hNonempty, -, -⟩ := locate_eq_ok.mp hRoot
  have hSplitBelow : Text.splitAtChar '/' (Text.join ['/'] below) = below :=
    Text.splitAtChar_join_pieces hBelow fun piece hPiece => (hNames piece hPiece).slash
  have hRelative := isAbsolute_join_names hNames
  obtain ⟨pieces, hSplit, hLed⟩ := exists_follow_of_join hRoot hRelative
  refine locate_eq_ok.mpr ⟨?_, ?_, hLength, ?_⟩
  · rw [join]
    have hNone : '\x00' ∉ Text.join ['/'] below :=
      Text.not_mem_join (by decide) fun piece hPiece => (hNames piece hPiece).nul
    split_ifs <;> simp_all
  · rw [join]
    split_ifs <;> simp_all
  · rw [start, isAbsolute_join hNonempty hRelative, ← start, hSplit, hSplitBelow, follow_append_eq_ok]
    exact ⟨home, hLed, rooted.follow_names hNames hThere⟩

end

end Store

/-- Pieces that name something are the components of their path. -/
theorem Path.components_join {pieces : List Text} (hPieces : pieces ≠ [])
    (h : ∀ piece ∈ pieces, '/' ∉ piece ∧ isIdle piece = false) : components (Text.join ['/'] pieces) = pieces := by
  obtain ⟨first, rest, rfl⟩ := List.exists_cons_of_ne_nil hPieces
  have hSplit := Text.splitAtChar_join_pieces hPieces fun piece hPiece => (h piece hPiece).1
  have hFirst : first ≠ [] := by
    rintro rfl
    exact absurd (h [] List.mem_cons_self).2 (by decide)
  have hRest : rest.filter (!isIdle ·) = rest :=
    List.filter_eq_self.mpr fun piece hPiece => by simp [(h piece (List.mem_cons_of_mem _ hPiece)).2]
  rw [components_of_pieces hSplit, hRest]
  simp [hFirst]

namespace IconSource

open Store

section

variable {store : Store} {below other dirs : Location} {name stem text file root : Text} {home : Location}

/-- Only a stem that would lead upwards is told otherwise. -/
theorem baseName_eq (h : baseName stem ≠ "..".toList) : baseName stem = stem := by
  rw [baseName] at h ⊢
  split
  · rename_i hUpward
    rw [if_pos hUpward] at h
    exact absurd (by simpa [isUpward] using hUpward) h
  · rfl

/-- The name of an icon leads somewhere. -/
theorem isIdle_baseName (h : stem ≠ []) : isIdle (baseName stem) = false := by
  rw [baseName]
  split
  · simp [isIdle, h]
  · rename_i hNot
    have hOther : stem ≠ ['.'] := by
      rintro rfl
      exact hNot rfl
    simp [isIdle, h, hOther]

theorem slash_not_mem_baseName (h : '/' ∉ stem) : '/' ∉ baseName stem := by
  rw [baseName]
  split <;> simp [h]

/-- Below a directory, the name of an icon has the names of the directories on the way and that of its file, without
the extension. -/
theorem nameAt?_eq_some (hNames : ∀ piece ∈ below, IsName piece) (h : nameAt? below = some name) :
    ∃ dirs stem, below = dirs ++ [fileName stem] ∧ '/' ∉ stem ∧
      name = Text.join ['/'] (dirs ++ [baseName stem]) ∧ Text.splitAtChar '/' name = dirs ++ [baseName stem] := by
  rw [nameAt?] at h
  obtain ⟨file, hLast, hFile⟩ := Option.bind_eq_some_iff.mp h
  obtain ⟨⟨stem, found⟩, hSplit, hName⟩ := Option.bind_eq_some_iff.mp hFile
  obtain ⟨dirs, rfl⟩ := List.getLast?_eq_some_iff.mp hLast
  obtain ⟨hStem, rfl⟩ := ComponentFile.splitExtension?_eq_some hSplit
  rw [List.forall_mem_append, List.forall_mem_singleton] at hNames
  simp only [List.dropLast_concat] at hName
  split at hName
  · rename_i hFound
    obtain rfl : found = extension := by simpa using hFound
    have hSlash : '/' ∉ stem := fun hMem => hNames.2.slash (List.mem_append_left _ hMem)
    have hPieces : ∀ piece ∈ dirs ++ [baseName stem], '/' ∉ piece ∧ isIdle piece = false := by
      rw [List.forall_mem_append, List.forall_mem_singleton]
      exact ⟨fun piece hPiece => ⟨(hNames.1 piece hPiece).slash, (hNames.1 piece hPiece).idle⟩,
        slash_not_mem_baseName hSlash, isIdle_baseName hStem⟩
    have hSplitName : Text.splitAtChar '/' (Text.join ['/'] (dirs ++ [baseName stem])) = dirs ++ [baseName stem] :=
      Text.splitAtChar_join_pieces (by simp) fun piece hPiece => (hPieces piece hPiece).1
    rw [components_join (by simp) hPieces] at hName
    obtain rfl := Option.some.inj hName
    exact ⟨dirs, stem, rfl, hSlash, rfl, hSplitName⟩
  · cases hName

/-- Only the last piece of a name gets the ending of a file. -/
theorem fileName_join (dirs : List Text) (stem : Text) :
    fileName (Text.join ['/'] (dirs ++ [stem])) = Text.join ['/'] (dirs ++ [fileName stem]) := by
  cases dirs with
  | nil => rfl
  | cons first rest =>
      rw [Text.join_append _ (List.cons_ne_nil _ _) (List.cons_ne_nil _ _),
        Text.join_append _ (List.cons_ne_nil _ _) (List.cons_ne_nil _ _)]
      simp [fileName, Text.join]

/-- Unless its last piece points upward, the name of an icon tells where its file is. -/
theorem fileName_nameAt? (hNames : ∀ piece ∈ below, IsName piece) (h : nameAt? below = some name)
    (hLast : (Text.splitAtChar '/' name).getLast? ≠ some "..".toList) :
    fileName name = Text.join ['/'] below ∧ below = Text.splitAtChar '/' (fileName name) := by
  obtain ⟨dirs, stem, rfl, -, rfl, hSplit⟩ := nameAt?_eq_some hNames h
  rw [hSplit, List.getLast?_concat] at hLast
  have hStem := baseName_eq fun hSame => hLast (congrArg some hSame)
  rw [hStem, fileName_join]
  exact ⟨rfl, (Text.splitAtChar_join_pieces (by simp) fun piece hPiece => (hNames piece hPiece).slash).symm⟩

/-- Different files have different names, unless a name ends in two dots. -/
theorem eq_of_nameAt? (hNames : ∀ piece ∈ below, IsName piece) (hOther : ∀ piece ∈ other, IsName piece)
    (h : nameAt? below = some name) (hSame : nameAt? other = some name)
    (hLast : (Text.splitAtChar '/' name).getLast? ≠ some "..".toList) : below = other := by
  rw [(fileName_nameAt? hNames h hLast).2, (fileName_nameAt? hOther hSame hLast).2]

/-- What is available is the names of the files below the root. -/
theorem mem_available_iff (hRoot : store.locate root = .ok home) (hHome : store.node? home = some .directory) :
    name ∈ available store root ↔ ∃ below ∈ store.filesBelow home, nameAt? below = some name := by
  rw [available, hRoot]
  simp only [hHome, Text.sorted, (List.mergeSort_perm _ _).mem_iff, List.mem_filterMap]

/-- No piece of a name that may be fetched points upward. -/
theorem last_ne_upward (h : isValidName name = true) :
    (Text.splitAtChar '/' name).getLast? ≠ some "..".toList := by
  obtain ⟨-, -, -, hDots⟩ := isValidName_iff.mp h
  intro hLast
  have hInfix := Text.infix_of_mem_splitAtChar (List.mem_of_getLast? hLast)
  rw [hasDoubleDot_of_isInfix hInfix] at hDots
  cases hDots

/-- A name that stands for a file is served the text of that file, or refused as it is written. -/
theorem fetch_of_nameAt? (proper : store.Proper) (rooted : store.Rooted) (hRoot : store.locate root = .ok home)
    (hBelow : below ∈ store.filesBelow home) (hName : nameAt? below = some name)
    (hText : store.node? (home ++ below) = some (.file text))
    (hLength : Text.byteLength (join root (Text.join ['/'] below)) ≤ longestPath) :
    fetch store root name = if isValidName name then .ok text else .error (.invalidName name) := by
  have hNames := proper.named_of_mem_filesBelow hBelow
  cases hValid : isValidName name with
  | false => simp [fetch, path?, hValid]
  | true =>
      have hLocate := rooted.locate_below hRoot (mem_filesBelow_iff.mp hBelow).1 hNames (by rw [hText]; rfl) hLength
      rw [← (fileName_nameAt? hNames hName (last_ne_upward hValid)).1] at hLocate
      have hRead := readText_eq_ok.mpr ⟨_, hLocate, hText⟩
      simp only [fetch, path?, hValid, if_true, ← fileName.eq_def, hRead]

end

/-- A directory lists the names of the icon files below it. Unless fetching refuses the name, it gives what is in the
file that the name is listed for. Files that are listed under one name are the same, unless the name points upward at
its end. -/
theorem fetch_of_available {store : Store} {root : Text} {home : Location} (proper : store.Proper)
    (rooted : store.Rooted) (hRoot : store.locate root = .ok home) (hHome : store.node? home = some .directory) :
    (∀ name, name ∈ available store root ↔ ∃ below ∈ store.filesBelow home, nameAt? below = some name) ∧
    (∀ below ∈ store.filesBelow home, ∀ name text, nameAt? below = some name →
      store.node? (home ++ below) = some (.file text) →
      Text.byteLength (join root (Text.join ['/'] below)) ≤ longestPath →
      fetch store root name = if isValidName name then .ok text else .error (.invalidName name)) ∧
    ∀ below ∈ store.filesBelow home, ∀ other ∈ store.filesBelow home, ∀ name, nameAt? below = some name →
      nameAt? other = some name → (Text.splitAtChar '/' name).getLast? ≠ some "..".toList → below = other :=
  ⟨fun _ => mem_available_iff hRoot hHome,
    fun _ hBelow _ _ hName hText hLength => fetch_of_nameAt? proper rooted hRoot hBelow hName hText hLength,
    fun _ hBelow _ hOther _ h hSame hLast => eq_of_nameAt? (proper.named_of_mem_filesBelow hBelow)
      (proper.named_of_mem_filesBelow hOther) h hSame hLast⟩

/-- An icon whose name has a dot, below a directory whose name has one. -/
theorem fetch_of_available_dotted :
    let store : Store := ⟨[], [(["icons".toList], .directory), (["icons".toList, "v1.0".toList], .directory),
      (["icons".toList, "v1.0".toList, "home.outline.svg".toList], .file "<svg/>".toList)]⟩
    store.Proper ∧ store.Rooted ∧ store.locate "icons".toList = .ok ["icons".toList] ∧
      "v1.0/home.outline".toList ∈ available store "icons".toList ∧
      fetch store "icons".toList "v1.0/home.outline".toList = .ok "<svg/>".toList := by
  intro store
  have proper : store.Proper := ⟨by decide +kernel, by decide +kernel, by decide⟩
  have rooted : store.Rooted := rooted_of_nodes (by decide +kernel)
  have hRoot : store.locate "icons".toList = .ok ["icons".toList] := rfl
  obtain ⟨hListed, hFetched, -⟩ := fetch_of_available proper rooted hRoot rfl
  have hBelow : ["v1.0".toList, "home.outline.svg".toList] ∈ store.filesBelow ["icons".toList] := by decide +kernel
  have hName : nameAt? ["v1.0".toList, "home.outline.svg".toList] = some "v1.0/home.outline".toList := by decide +kernel
  exact ⟨proper, rooted, hRoot, (hListed _).mpr ⟨_, hBelow, hName⟩, hFetched _ hBelow _ _ hName rfl (by decide +kernel)⟩

/-- A hidden file is listed, but its name is refused. -/
theorem available_hidden_refused :
    let store : Store := ⟨[], [(["icons".toList], .directory),
      (["icons".toList, ".hidden.svg".toList], .file "<svg/>".toList)]⟩
    available store "icons".toList = [".hidden".toList] ∧
      fetch store "icons".toList ".hidden".toList = .error (.invalidName ".hidden".toList) := by
  decide +kernel

end IconSource

end IconRegistry
