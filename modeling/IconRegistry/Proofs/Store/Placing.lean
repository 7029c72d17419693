import IconRegistry.Proofs.Store.Following
import IconRegistry.Store.ComponentFile

/-! Entries of directories: where the path of an entry leads, and what is there to be made above it. -/
namespace IconRegistry

namespace Path

/-- The last piece of a path, if it is not idle, is what the path names in the directory above. -/
structure EntryIn (path : Text) (pieces : List Text) (last : Text) : Prop where
  split : Text.splitAtChar '/' path = pieces ++ [last]
  proper : isIdle last = false

/-- Such a path does not end in a slash. -/
theorem EntryIn.getLast?_ne {path last : Text} {pieces : List Text} (h : EntryIn path pieces last) :
    path.getLast? ≠ some '/' := by
  intro hSlash
  obtain ⟨front, rfl⟩ := List.getLast?_eq_some_iff.mp hSlash
  have hSplit := h.split
  rw [Text.splitAtChar_append] at hSplit
  obtain rfl : [] = last := by simpa [Text.splitAtChar, Text.splitWhere] using (List.append_inj' hSplit rfl).2
  exact absurd h.proper (by decide)

/-- The path above an entry ends in no slash unless it is the root. -/
theorem EntryIn.above_slash {path above last : Text} {pieces : List Text} (h : EntryIn path pieces last)
    (hAbove : parent? path = some above) (hNonempty : above ≠ []) : above.getLast? ≠ some '/' ∨ above = ['/'] := by
  cases pieces with
  | nil =>
      rw [parent?_of_piece h.split h.proper] at hAbove
      exact absurd (Option.some.inj hAbove).symm hNonempty
  | cons first rest =>
      obtain ⟨above', kept, idle, hParent, -, -, hSlash, -⟩ := parent?_of_split h.split h.proper
      obtain rfl : above' = above := Option.some.inj (hParent.symm.trans hAbove)
      exact hSlash

end Path

namespace Store

open IconRegistry.Path

variable {store : Store} {path last : Text} {pieces : List Text} {here : Location}

/-- The path of an entry leads to a directory first. -/
theorem exists_home (entry : EntryIn path pieces last) (hLocate : store.locate path = .ok here) :
    ∃ home, store.follow pieces (store.start path) = .ok home ∧ store.node? home = some .directory ∧
      step? last home = some here := by
  obtain ⟨-, -, -, hFollow⟩ := locate_eq_ok.mp hLocate
  rw [entry.split, follow_append_eq_ok] at hFollow
  obtain ⟨home, hHome, hLast⟩ := hFollow
  obtain ⟨hDirectory, next, hNext, hEnd⟩ := follow_cons_eq_ok.mp hLast
  obtain rfl : next = here := Except.ok.inj hEnd
  exact ⟨home, hHome, hDirectory, hNext⟩

/-- That directory is the one above. -/
theorem hasDirectory_above {above : Text} (entry : EntryIn path pieces last)
    (hLocate : store.locate path = .ok here) (hAbove : parent? path = some above) (hNonempty : above ≠ []) :
    store.hasDirectory above = true := by
  obtain ⟨home, hHome, hDirectory, -⟩ := exists_home entry hLocate
  obtain ⟨hNul, -, hLength, -⟩ := locate_eq_ok.mp hLocate
  cases pieces with
  | nil =>
      rw [parent?_of_piece entry.split entry.proper] at hAbove
      exact absurd (Option.some.inj hAbove).symm hNonempty
  | cons first rest =>
      obtain ⟨above', kept, idle, hParent, -, hPrefix, -, hPieces, hIdle, hSplit⟩ :=
        parent?_of_split entry.split entry.proper
      obtain rfl : above' = above := Option.some.inj (hParent.symm.trans hAbove)
      rw [hPieces, follow_append_eq_ok] at hHome
      obtain ⟨middle, hKept, hRest⟩ := hHome
      obtain rfl := eq_of_follow_idle hIdle hRest
      have hStart : store.start above' = store.start path := by
        rw [start, start, isAbsolute_of_prefix hPrefix hNonempty]
      obtain ⟨more, rfl⟩ := hPrefix
      refine hasDirectory_iff.mpr ⟨home, locate_eq_ok.mpr ⟨?_, hNonempty, ?_, ?_⟩, hDirectory⟩
      · exact fun hMem => hNul (List.mem_append_left _ hMem)
      · rw [Text.byteLength_append] at hLength
        omega
      · rw [hStart]
        rcases hSplit with hSplit | hSplit
        · rwa [hSplit]
        · rw [hSplit, follow_append_eq_ok]
          exact ⟨home, hKept, follow_idle (by simp [isIdle]) hDirectory⟩

theorem upwards_eq_cons (path : Text) : ∃ above, upwards path = path :: above := by
  rw [upwards]
  cases path.length with
  | zero => exact ⟨[], rfl⟩
  | succ fuel =>
      rw [upwardsWithin]
      split
      · exact ⟨_, rfl⟩
      · exact ⟨_, rfl⟩

/-- A path that ends in no slash is the entry it leads to. -/
theorem locateEntry_of_slash (h : path.getLast? ≠ some '/' ∨ path = ['/']) :
    store.locateEntry path = store.locate path := by
  rcases h with h | rfl
  · exact locateEntry_of_getLast? h
  · rfl

/-- The path of a file names an entry of a directory. -/
theorem exists_entryIn {path text : Text} (h : store.readText path = .ok text) :
    ∃ pieces last, EntryIn path pieces last := by
  obtain ⟨here, hLocate, hNode⟩ := readText_eq_ok.mp h
  obtain ⟨-, -, -, hFollow⟩ := locate_eq_ok.mp hLocate
  obtain ⟨pieces, last, hSplit⟩ :=
    (List.eq_nil_or_concat (Text.splitAtChar '/' path)).resolve_left (Text.splitAtChar_ne_nil '/' path)
  rw [List.concat_eq_append] at hSplit
  refine ⟨pieces, last, hSplit, ?_⟩
  -- behind an idle piece there is a directory
  rw [← Bool.not_eq_true]
  intro hIdle
  rw [hSplit, follow_append_eq_ok] at hFollow
  obtain ⟨home, -, hLast⟩ := hFollow
  obtain ⟨hDirectory, -⟩ := follow_cons_eq_ok.mp hLast
  obtain rfl := eq_of_follow_idle (by simpa using hIdle) hLast
  rw [hDirectory] at hNode
  cases hNode

/-- A directory that is there need not be made. -/
theorem makeDirectories_of_hasDirectory (h : store.hasDirectory path = true)
    (hSlash : path.getLast? ≠ some '/' ∨ path = ['/']) : store.makeDirectories path = (store, .ok ()) := by
  obtain ⟨here, hLocate, hNode⟩ := hasDirectory_iff.mp h
  obtain ⟨-, hNonempty, -, -⟩ := locate_eq_ok.mp hLocate
  obtain ⟨above, hUpwards⟩ := upwards_eq_cons path
  have hThere : store.makeDirectory path = .error .alreadyExists := by
    rw [makeDirectory, locateEntry_of_slash hSlash, hLocate]
    simp [hNode, bind, Except.bind, throw, throwThe, MonadExceptOf.throw]
  rw [makeDirectories, hUpwards, makeDirectoriesFrom, if_neg (by simpa using hNonempty), hThere]
  simp [h]

/-- Nothing need be made above an entry that is there. -/
theorem makeDirectories_above {above : Text} (entry : EntryIn path pieces last)
    (hLocate : store.locate path = .ok here) (hAbove : parent? path = some above) (hNonempty : above ≠ []) :
    store.makeDirectories above = (store, .ok ()) :=
  makeDirectories_of_hasDirectory (hasDirectory_above entry hLocate hAbove hNonempty)
    (entry.above_slash hAbove hNonempty)

/-- Only slashes are taken from the end of a path. -/
theorem withoutSlashes_append (path : Text) :
    ∃ slashes : Text, path = withoutSlashes path ++ slashes ∧ ∀ c ∈ slashes, c = '/' := by
  refine ⟨(path.reverse.takeWhile (· == '/')).reverse, ?_, fun c hc => ?_⟩
  · rw [withoutSlashes, ← List.reverse_append, List.takeWhile_append_dropWhile, List.reverse_reverse]
  · simpa using List.all_eq_true.mp List.all_takeWhile c (List.mem_reverse.mp hc)

/-- Behind the path of a directory slashes make no difference. -/
theorem locate_of_locateEntry (h : store.locateEntry path = .ok here) (hNode : store.node? here = some .directory) :
    store.locate path = .ok here := by
  obtain ⟨slashes, hPath, hSlashes⟩ := withoutSlashes_append path
  rw [locateEntry] at h
  split at h
  · exact h
  · rename_i hShort
    simp only [Bool.or_eq_true, List.isEmpty_iff, decide_eq_true_eq, not_or, Nat.not_lt] at hShort
    obtain ⟨hNonempty, hLength⟩ := hShort
    cases slashes with
    | nil =>
        rw [List.append_nil] at hPath
        rwa [← hPath] at h
    | cons c rest =>
        obtain ⟨rfl, hRest⟩ := List.forall_mem_cons.mp hSlashes
        obtain ⟨hNul, -, -, hFollow⟩ := locate_eq_ok.mp h
        have hIdle : ∀ piece ∈ Text.splitAtChar '/' rest, isIdle piece = true := by
          intro piece hPiece
          have hNone : piece = [] := by
            rw [List.eq_nil_iff_forall_not_mem]
            intro c hc
            obtain rfl := hRest c ((Text.infix_of_mem_splitAtChar hPiece).subset hc)
            exact Text.not_mem_of_mem_splitAtChar hPiece hc
          rw [hNone]
          rfl
        have hNoNul : '\x00' ∉ path := by
          rw [hPath, List.mem_append, not_or]
          exact ⟨hNul, fun hMem => absurd (hSlashes _ hMem) (by decide)⟩
        have hStart : store.start path = store.start (withoutSlashes path) := by
          have hAbsolute := isAbsolute_append hNonempty ('/' :: rest)
          rw [← hPath] at hAbsolute
          rw [start, start, hAbsolute]
        have hSplit := congrArg (Text.splitAtChar '/') hPath
        rw [Text.splitAtChar_append] at hSplit
        refine locate_eq_ok.mpr ⟨hNoNul, ?_, hLength, ?_⟩
        · rw [hPath]
          simp
        · rw [hStart, hSplit, follow_append_eq_ok]
          exact ⟨here, hFollow, follow_idle hIdle hNode⟩

/-- A directory that was made is there. -/
theorem hasDirectory_of_makeDirectory {made : Store} (h : store.makeDirectory path = .ok made) :
    made.hasDirectory path = true := by
  obtain ⟨here, hLocate, hNode, rfl⟩ := makeDirectory_eq_ok.mp h
  have hRoot : here ≠ [] := by
    rintro rfl
    cases hNode
  have hThere : (store.put here .directory).node? here = some .directory := node?_put_same hRoot _
  have hEntry : (store.put here .directory).locateEntry path = .ok here :=
    (extends_put hNode .directory).locate hLocate
  exact hasDirectory_iff.mpr ⟨here, locate_of_locateEntry hEntry hThere, hThere⟩

/-- What is made is there afterwards. -/
theorem hasDirectory_of_makeDirectories {made : Store} (h : store.makeDirectories path = (made, .ok ()))
    (hNonempty : path ≠ []) : made.hasDirectory path = true := by
  have hSettled : ∀ {store : Store} {e : FileError},
      (store, if store.hasDirectory path then Except.ok () else .error e) = (made, Except.ok ()) →
      made.hasDirectory path = true := by
    intro store e h
    obtain ⟨rfl, hSame⟩ := Prod.mk.inj h
    split at hSame
    · assumption
    · cases hSame
  obtain ⟨above, hUpwards⟩ := upwards_eq_cons path
  rw [makeDirectories, hUpwards, makeDirectoriesFrom, if_neg (by simpa using hNonempty)] at h
  split at h
  · rename_i first hFirst
    obtain ⟨rfl, -⟩ := Prod.mk.inj h
    exact hasDirectory_of_makeDirectory hFirst
  · split at h
    · simp at h
    · split at h
      · rename_i again hAgain
        obtain ⟨rfl, -⟩ := Prod.mk.inj h
        exact hasDirectory_of_makeDirectory hAgain
      · exact hSettled h
  · exact hSettled h

end Store

namespace ComponentFile

open IconRegistry.Path Store

/-- The pieces of a path to an entry of a directory, but for the last one. -/
def piecesTo (directory : Text) : List Text :=
  if directory = [] then []
  else if directory.getLast? = some '/' then (Text.splitAtChar '/' directory).dropLast
  else Text.splitAtChar '/' directory

/-- What may stand behind the dot of a file name. -/
structure IsExtension (extension : Text) : Prop where
  nonempty : extension ≠ []
  slash : '/' ∉ extension
  dot : '.' ∉ extension

section

variable {directory name other extension : Text} {store : Store} {here : Location}

theorem IsExtension.last_ne (h : IsExtension extension) (name : Text) :
    (name ++ '.' :: extension).getLast? ≠ some '.' := by
  obtain ⟨front, c, rfl⟩ := (List.eq_nil_or_concat extension).resolve_left h.nonempty
  have hDot := h.dot
  simp only [List.concat_eq_append, List.mem_append, List.mem_singleton, not_or] at hDot
  have hParts : name ++ '.' :: front.concat c = (name ++ '.' :: front) ++ [c] := by simp
  rw [hParts, List.getLast?_concat]
  simpa [eq_comm] using hDot.2

/-- A file with an extension is a piece that leads somewhere. -/
theorem IsExtension.not_idle (h : IsExtension extension) (name : Text) :
    isIdle (name ++ '.' :: extension) = false := by
  have hLast := h.last_ne name
  simp only [isIdle, Bool.or_eq_false_iff, beq_eq_false_iff_ne]
  exact ⟨by simp, fun hSame => hLast (by rw [hSame]; rfl)⟩

theorem IsExtension.not_upward (h : IsExtension extension) (name : Text) :
    isUpward (name ++ '.' :: extension) = false := by
  have hLast := h.last_ne name
  simp only [isUpward, beq_eq_false_iff_ne]
  exact fun hSame => hLast (by rw [hSame]; rfl)

/-- The name of a file with an extension leads one place further down. -/
theorem IsExtension.eq_of_step? {home : Location} (h : IsExtension extension)
    (hStep : step? (name ++ '.' :: extension) home = some here) : here = home ++ [name ++ '.' :: extension] := by
  rw [step?, h.not_idle, h.not_upward] at hStep
  simp only [Bool.false_eq_true, if_false] at hStep
  split at hStep
  · cases hStep
  · exact (Option.some.inj hStep).symm

/-- A name without slashes is a relative path. -/
theorem relative_of_not_mem (hName : '/' ∉ name) (extension : Text) :
    isAbsolute (name ++ '.' :: extension) = false := by
  cases name with
  | nil => rfl
  | cons c rest =>
      have hc : c ≠ '/' := fun hSame => hName (by simp [hSame])
      simpa [isAbsolute] using hc

/-- The path of a component has the pieces of its directory and then its file. -/
theorem splitAtChar_pathOf (h : IsExtension extension) (hName : '/' ∉ name) :
    Text.splitAtChar '/' (pathOf directory name extension) = piecesTo directory ++ [name ++ '.' :: extension] := by
  have hFile : '/' ∉ name ++ '.' :: extension := by simp [hName, h.slash]
  have hRelative := relative_of_not_mem hName extension
  rw [pathOf, join, piecesTo, hRelative]
  by_cases hEmpty : directory = []
  · subst hEmpty
    simp [Text.splitAtChar_of_not_mem hFile]
  · by_cases hSlash : directory.getLast? = some '/'
    · obtain ⟨front, rfl⟩ := List.getLast?_eq_some_iff.mp hSlash
      have hPieces : Text.splitAtChar '/' (front ++ ['/']) = Text.splitAtChar '/' front ++ [[]] :=
        Text.splitAtChar_append '/' front []
      simp only [Bool.false_or, List.isEmpty_iff, hEmpty, hSlash, beq_self_eq_true, if_true, if_false, hPieces,
        List.dropLast_concat]
      rw [List.append_assoc, List.singleton_append, Text.splitAtChar_append, Text.splitAtChar_of_not_mem hFile]
    · simp only [Bool.false_or, List.isEmpty_iff, hEmpty, hSlash, if_false, beq_iff_eq]
      rw [Text.splitAtChar_append, Text.splitAtChar_of_not_mem hFile]

/-- The path of a component starts where its directory does. -/
theorem start_pathOf (hName : '/' ∉ name) : store.start (pathOf directory name extension) = store.start directory := by
  have hRelative := relative_of_not_mem hName extension
  have hAbsolute : isAbsolute (pathOf directory name extension) = isAbsolute directory := by
    rw [pathOf, join, hRelative]
    by_cases hEmpty : directory = []
    · subst hEmpty
      exact hRelative
    · simp only [Bool.false_or, List.isEmpty_iff, hEmpty, if_false]
      split <;> exact isAbsolute_append hEmpty _
  rw [start, start, hAbsolute]

/-- The path of a component is an entry of its directory. -/
theorem entryIn_pathOf (h : IsExtension extension) (hName : '/' ∉ name) :
    EntryIn (pathOf directory name extension) (piecesTo directory) (name ++ '.' :: extension) :=
  ⟨splitAtChar_pathOf h hName, h.not_idle name⟩

/-- The file of a component is in the directory. -/
theorem exists_home (h : IsExtension extension) (hName : '/' ∉ name)
    (hLocate : store.locate (pathOf directory name extension) = .ok here) :
    ∃ home, store.follow (piecesTo directory) (store.start directory) = .ok home ∧
      store.node? home = some .directory ∧ here = home ++ [name ++ '.' :: extension] := by
  obtain ⟨home, hHome, hDirectory, hStep⟩ := Store.exists_home (entryIn_pathOf h hName) hLocate
  rw [start_pathOf hName] at hHome
  exact ⟨home, hHome, hDirectory, h.eq_of_step? hStep⟩

/-- Components with different names have different files. -/
theorem name_eq_of_locate (h : IsExtension extension) (hName : '/' ∉ name) (hOther : '/' ∉ other)
    (hLocate : store.locate (pathOf directory name extension) = .ok here)
    (hLocateOther : store.locate (pathOf directory other extension) = .ok here) : name = other := by
  obtain ⟨home, hHome, -, hHere⟩ := exists_home h hName hLocate
  obtain ⟨home', hHome', -, hHere'⟩ := exists_home h hOther hLocateOther
  obtain rfl : home = home' := Except.ok.inj (hHome.symm.trans hHome')
  have hFile := List.append_cancel_left (hHere.symm.trans hHere')
  exact List.append_cancel_right (List.cons_eq_cons.mp hFile).1

end

end ComponentFile

end IconRegistry
