import IconRegistry.Proofs.Path.Pieces
import IconRegistry.Store.IconSource

/-! The file that an icon is fetched from. Its path goes on from the directory and never upward, unless the name of
the icon begins with a slash: then it leads wherever the name says. -/
namespace IconRegistry

namespace Path

/-- The components of a path are its pieces without those that lead nowhere. -/
theorem components_of_pieces {path first : Text} {rest : List Text}
    (h : Text.splitAtChar '/' path = first :: rest) :
    components path = (if first == [] then [] else [first]) ++ rest.filter (!isIdle ·) := by
  rw [components, h]

/-- A relative path below another one adds its pieces to the components of that one. -/
theorem lexical_join {path below : Text} (hPath : path ≠ []) (hBelow : isAbsolute below = false) :
    lexical (join path below) = lexical path ++ (Text.splitAtChar '/' below).filter (!isIdle ·) := by
  have hAbsolute := isAbsolute_join hPath hBelow
  obtain ⟨pieces, hPieces, hJoined, hSplit⟩ := splitAtChar_join hPath hBelow
  obtain ⟨first, rest, rfl⟩ := List.exists_cons_of_ne_nil hPieces
  have hComponents : components path = (if first == [] then [] else [first]) ++ rest.filter (!isIdle ·) := by
    rcases hSplit with hSplit | hSplit
    · exact components_of_pieces hSplit
    · rw [List.cons_append] at hSplit
      rw [components_of_pieces hSplit, List.filter_append]
      simp [isIdle]
  rw [List.cons_append] at hJoined
  rw [lexical, lexical, hAbsolute, components_of_pieces hJoined, hComponents, List.filter_append]
  simp

end Path

namespace IconSource

open IconRegistry.Path

theorem hasDoubleDot_cons {c : Char} {s : Text} (h : hasDoubleDot s = true) : hasDoubleDot (c :: s) = true := by
  rw [hasDoubleDot.eq_def]
  split <;> simp_all

/-- Two dots in a row are found wherever they stand. -/
theorem hasDoubleDot_of_isInfix {s : Text} (h : ['.', '.'] <:+: s) : hasDoubleDot s = true := by
  obtain ⟨front, rest, rfl⟩ := h
  induction front with
  | nil => rfl
  | cons c front ih => exact hasDoubleDot_cons ih

def fileName (icon : Text) : Text :=
  icon ++ '.' :: extension

/-- A valid name is not empty, begins with no dot, and holds neither a backslash nor two dots in a row. -/
theorem isValidName_iff {icon : Text} : isValidName icon = true ↔
    icon ≠ [] ∧ icon.head? ≠ some '.' ∧ '\\' ∉ icon ∧ hasDoubleDot icon = false := by
  simp [isValidName, and_assoc]

/-- No piece of the path of an icon's file points upward. -/
theorem upward_not_mem {icon : Text} (h : hasDoubleDot icon = false) :
    ['.', '.'] ∉ Text.splitAtChar '/' (fileName icon) := by
  have hInfix : ¬['.', '.'] <:+: icon := by
    intro hDots
    rw [hasDoubleDot_of_isInfix hDots] at h
    cases h
  have hLast : ∀ last : Text, ['.', '.'] ≠ last ++ '.' :: extension := by
    intro last hSame
    have := congrArg List.length hSame
    simp [extension] at this
  have hSuffix : '/' ∉ '.' :: extension := by decide
  obtain ⟨last, hSlash, rfl | ⟨front, rfl⟩⟩ := Text.exists_lastPiece '/' icon
  · rw [fileName, Text.splitAtChar_of_not_mem (by simp [hSlash, hSuffix]), List.mem_singleton]
    exact hLast icon
  · have hFile : fileName (front ++ '/' :: last) = front ++ '/' :: (last ++ '.' :: extension) := by
      simp [fileName]
    rw [hFile, Text.splitAtChar_append, List.mem_append, not_or,
      Text.splitAtChar_of_not_mem (s := last ++ '.' :: extension) (by simp [hSlash, hSuffix]), List.mem_singleton]
    refine ⟨fun hPiece => hInfix ?_, hLast last⟩
    exact (Text.infix_of_mem_splitAtChar hPiece).trans (List.prefix_append _ _).isInfix

/-- The components of an icon's file. -/
theorem upward_not_mem_lexical {icon : Text} (h : hasDoubleDot icon = false) :
    ['.', '.'] ∉ lexical (fileName icon) := by
  have hPieces := upward_not_mem h
  obtain ⟨first, rest, hSplit⟩ := List.exists_cons_of_ne_nil (Text.splitAtChar_ne_nil '/' (fileName icon))
  rw [hSplit, List.mem_cons, not_or] at hPieces
  rw [lexical, components_of_pieces hSplit]
  intro hMem
  rcases List.mem_append.mp hMem with hMem | hMem
  · split at hMem <;> simp at hMem
  · rcases List.mem_append.mp hMem with hMem | hMem
    · split at hMem
      · cases hMem
      · exact hPieces.1 (List.mem_singleton.mp hMem)
    · exact hPieces.2 (List.mem_filter.mp hMem).1

/-- An ending changes nothing about whether a path is absolute. -/
theorem isAbsolute_fileName {icon : Text} (h : icon ≠ []) : isAbsolute (fileName icon) = isAbsolute icon :=
  isAbsolute_append h _

/-- From a relative name a path comes that goes on from the directory. -/
theorem liesBelow_of_relative {root icon : Text} (h : isValidName icon = true) (hRelative : isAbsolute icon = false) :
    LiesBelow root (join root (fileName icon)) := by
  obtain ⟨hNonempty, -, -, hDots⟩ := isValidName_iff.mp h
  have hBelow : isAbsolute (fileName icon) = false := by rw [isAbsolute_fileName hNonempty, hRelative]
  by_cases hRoot : root = []
  · subst hRoot
    have hJoin : join [] (fileName icon) = fileName icon := by simp [join]
    exact ⟨lexical (fileName icon), by rw [hJoin]; rfl, upward_not_mem_lexical hDots⟩
  · exact ⟨_, lexical_join hRoot hBelow, fun hMem => upward_not_mem hDots (List.mem_filter.mp hMem).1⟩

/-- An absolute name takes the place of the root, so it lies below the root only by itself. -/
theorem liesBelow_iff_of_absolute {root icon : Text} (h : isValidName icon = true)
    (hAbsolute : isAbsolute icon = true) :
    LiesBelow root (join root (fileName icon)) ↔ lexical root <+: lexical (fileName icon) := by
  obtain ⟨hNonempty, -, -, hDots⟩ := isValidName_iff.mp h
  have hJoin : join root (fileName icon) = fileName icon := by
    simp [join, isAbsolute_fileName hNonempty, hAbsolute]
  rw [hJoin]
  constructor
  · rintro ⟨below, hBelow, -⟩
    exact ⟨below, hBelow.symm⟩
  · rintro ⟨below, hBelow⟩
    refine ⟨below, hBelow.symm, fun hMem => upward_not_mem_lexical hDots ?_⟩
    rw [← hBelow]
    exact List.mem_append_right _ hMem

/-- What is fetched for a name that is not refused depends on one file only. The path of that file lies below the
directory if and only if the name does not begin with a slash, or leads there by itself. -/
theorem fetch_lies_below_iff {store : Store} {root icon : Text}
    (h : fetch store root icon ≠ .error (.invalidName icon)) :
    (∀ other : Store,
      other.readText (join root (fileName icon)) = store.readText (join root (fileName icon)) →
      fetch other root icon = fetch store root icon) ∧
    (LiesBelow root (join root (fileName icon)) ↔
      (isAbsolute icon = true → lexical root <+: lexical (fileName icon))) := by
  have hValid : isValidName icon = true := by
    cases hRefused : isValidName icon with
    | false => exact absurd (by simp [fetch, path?, hRefused]) h
    | true => rfl
  have hPath : path? root icon = some (join root (fileName icon)) := by simp [path?, hValid, fileName]
  constructor
  · intro other hSame
    simp only [fetch, hPath, hSame]
  · cases hAbsolute : isAbsolute icon with
    | false => simp [liesBelow_of_relative hValid hAbsolute]
    | true => simp [liesBelow_iff_of_absolute hValid hAbsolute]

/-- An icon in a directory below that of the icons. -/
theorem fetch_brand_lies_below :
    let store : Store := ⟨[], [(["icons".toList], .directory), (["icons".toList, "brand".toList], .directory),
      (["icons".toList, "brand".toList, "logo.svg".toList], .file "<svg/>".toList)]⟩
    fetch store "./icons/".toList "brand/logo".toList ≠ .error (.invalidName "brand/logo".toList) ∧
      fetch store "./icons/".toList "brand/logo".toList = .ok "<svg/>".toList ∧
      LiesBelow "./icons/".toList (join "./icons/".toList (fileName "brand/logo".toList)) := by
  intro store
  have hFetch : fetch store "./icons/".toList "brand/logo".toList = .ok "<svg/>".toList := rfl
  have hValid : fetch store "./icons/".toList "brand/logo".toList ≠ .error (.invalidName "brand/logo".toList) := by
    rw [hFetch]
    exact fun h => nomatch h
  exact ⟨hValid, hFetch, (fetch_lies_below_iff hValid).2.mpr (by decide)⟩

/-- A name that begins with a slash leads out of the directory. -/
theorem fetch_leaves_directory :
    let store : Store := ⟨["home".toList], [(["home".toList], .directory),
      (["home".toList, "icons".toList], .directory), (["etc".toList], .directory),
      (["etc".toList, "logo.svg".toList], .file "<svg/>".toList)]⟩
    fetch store "icons".toList "/etc/logo".toList = .ok "<svg/>".toList ∧
      ¬LiesBelow "icons".toList (join "icons".toList (fileName "/etc/logo".toList)) := by
  intro store
  refine ⟨rfl, ?_⟩
  rintro ⟨below, hBelow, -⟩
  have hPrefix : lexical "icons".toList <+: lexical (join "icons".toList (fileName "/etc/logo".toList)) :=
    ⟨below, hBelow.symm⟩
  exact absurd hPrefix (by decide)

end IconSource

end IconRegistry
