import IconRegistry.Path
import IconRegistry.Proofs.Component.Name

/-! Paths taken apart at their slashes and put together again, and the components by which paths are compared. -/
namespace IconRegistry

namespace Text

variable {separator : Char} {s t : Text}

/-- However a text is split, there is a piece. -/
theorem splitAtChar_ne_nil (separator : Char) (s : Text) : splitAtChar separator s ≠ [] :=
  splitWhere_ne_nil _ s

theorem splitAtChar_of_not_mem (h : separator ∉ s) : splitAtChar separator s = [s] := by
  refine splitWhere_of_forall fun c hc => beq_eq_false_iff_ne.mpr ?_
  rintro rfl
  exact h hc

/-- Pieces on both sides of a separator are split on their own. -/
theorem splitAtChar_append (separator : Char) (s t : Text) :
    splitAtChar separator (s ++ separator :: t) = splitAtChar separator s ++ splitAtChar separator t :=
  splitWhere_append (by simp) s t

/-- No piece holds the separator. -/
theorem not_mem_of_mem_splitAtChar {piece : Text} (h : piece ∈ splitAtChar separator s) : separator ∉ piece := by
  intro hMem
  simpa using Component.mem_splitWhere h separator hMem

theorem infix_of_mem_splitAtChar {piece : Text} (h : piece ∈ splitAtChar separator s) : piece <:+: s := by
  induction hLength : s.length using Nat.strongRecOn generalizing s with
  | _ n ih =>
    by_cases hSeparator : separator ∈ s
    · obtain ⟨front, rest, rfl⟩ := List.append_of_mem hSeparator
      rw [splitAtChar_append, List.mem_append] at h
      rcases h with h | h
      · have hShorter : front.length < n := by
          rw [← hLength, List.length_append, List.length_cons]
          omega
        exact (ih front.length hShorter h rfl).trans (List.prefix_append _ _).isInfix
      · have hShorter : rest.length < n := by
          rw [← hLength, List.length_append, List.length_cons]
          omega
        have hRest := ih rest.length hShorter h rfl
        exact hRest.trans ((List.suffix_cons _ _).trans (List.suffix_append _ _)).isInfix
    · rw [splitAtChar_of_not_mem hSeparator, List.mem_singleton] at h
      subst h
      exact List.infix_rfl

/-- A text is its last piece, or that stands behind the last separator. -/
theorem exists_lastPiece (separator : Char) (s : Text) :
    ∃ last, separator ∉ last ∧ (s = last ∨ ∃ front, s = front ++ separator :: last) := by
  induction s with
  | nil => exact ⟨[], by simp, .inl rfl⟩
  | cons c s ih =>
      obtain ⟨last, hLast, rfl | ⟨front, rfl⟩⟩ := ih
      · by_cases hc : separator = c
        · exact ⟨s, hLast, .inr ⟨[], by rw [hc]; rfl⟩⟩
        · exact ⟨c :: s, by simp [hc, hLast], .inl rfl⟩
      · exact ⟨last, hLast, .inr ⟨c :: front, rfl⟩⟩

/-- Behind a text, one without the separator goes on with the last piece. -/
theorem mem_splitAtChar_append {piece : Text} (ht : separator ∉ t) (h : piece ∈ splitAtChar separator (s ++ t)) :
    piece ∈ splitAtChar separator s ∨ ∃ last, last <:+ s ∧ piece = last ++ t := by
  obtain ⟨last, hLast, hSame | ⟨front, rfl⟩⟩ := exists_lastPiece separator s
  · rw [← hSame] at hLast
    rw [splitAtChar_of_not_mem (by simp [hLast, ht]), List.mem_singleton] at h
    exact .inr ⟨s, List.suffix_rfl, h⟩
  · have hBehind : separator ∉ last ++ t := by simp [hLast, ht]
    rw [List.append_assoc, List.cons_append, splitAtChar_append, splitAtChar_of_not_mem hBehind, List.mem_append,
      List.mem_singleton] at h
    rcases h with h | rfl
    · refine .inl ?_
      rw [splitAtChar_append]
      exact List.mem_append_left _ h
    · exact .inr ⟨last, ⟨front ++ [separator], by simp⟩, rfl⟩

theorem join_cons (separator s : Text) {rest : List Text} (h : rest ≠ []) :
    join separator (s :: rest) = s ++ separator ++ join separator rest := by
  cases rest with
  | nil => exact absurd rfl h
  | cons t rest => rfl

/-- Two rows of pieces are joined with a separator between them. -/
theorem join_append (separator : Text) {front rest : List Text} (hFront : front ≠ []) (hRest : rest ≠ []) :
    join separator (front ++ rest) = join separator front ++ separator ++ join separator rest := by
  induction front with
  | nil => exact absurd rfl hFront
  | cons s front ih =>
      cases front with
      | nil => exact join_cons separator s hRest
      | cons t front =>
          have hSame := ih (by simp)
          rw [List.cons_append, join_cons separator s (by simp), hSame,
            join_cons separator s (List.cons_ne_nil t front)]
          simp

theorem suffix_join (separator : Text) (front : List Text) (last : Text) :
    last <:+ join separator (front ++ [last]) := by
  rcases List.eq_nil_or_concat front with rfl | ⟨_, _, rfl⟩
  · exact List.suffix_rfl
  · rw [join_append separator (by simp) (by simp)]
    exact List.suffix_append _ _

/-- The pieces of a text make up the text. -/
theorem join_splitAtChar (separator : Char) (s : Text) : join [separator] (splitAtChar separator s) = s := by
  induction s with
  | nil => rfl
  | cons c s ih =>
      have hSome : splitWhere (· == separator) s ≠ [] := splitAtChar_ne_nil separator s
      rw [splitAtChar] at ih ⊢
      rw [splitWhere]
      split
      · rename_i hc
        rw [join_cons _ _ hSome, ih, beq_iff_eq.mp hc]
        rfl
      · obtain ⟨piece, pieces, hPieces⟩ := List.exists_cons_of_ne_nil (splitAtChar_ne_nil separator s)
        rw [splitAtChar] at hPieces
        rw [hPieces] at ih ⊢
        cases pieces with
        | nil => exact congrArg (c :: ·) ih
        | cons next pieces => exact congrArg (c :: ·) ih

/-- A character that is in no piece and not in the separator is not in what they are joined to. -/
theorem not_mem_join {c : Char} {separator : Text} {pieces : List Text} (hSeparator : c ∉ separator)
    (h : ∀ piece ∈ pieces, c ∉ piece) : c ∉ join separator pieces := by
  induction pieces with
  | nil => simp [join]
  | cons piece rest ih =>
      obtain ⟨hHere, hRest⟩ := List.forall_mem_cons.mp h
      cases rest with
      | nil => exact hHere
      | cons next rest =>
          rw [join_cons _ _ (List.cons_ne_nil _ _), List.mem_append, List.mem_append]
          rintro ((hMem | hMem) | hMem)
          · exact hHere hMem
          · exact hSeparator hMem
          · exact ih hRest hMem

/-- Texts without the separator are the pieces of what they make up. -/
theorem splitAtChar_join_pieces {pieces : List Text} (hPieces : pieces ≠ [])
    (h : ∀ piece ∈ pieces, separator ∉ piece) : splitAtChar separator (join [separator] pieces) = pieces := by
  induction pieces with
  | nil => exact absurd rfl hPieces
  | cons piece rest ih =>
      obtain ⟨hHere, hRest⟩ := List.forall_mem_cons.mp h
      cases rest with
      | nil => exact splitAtChar_of_not_mem hHere
      | cons next rest =>
          rw [join_cons _ _ (by simp), List.append_assoc, List.singleton_append, splitAtChar_append,
            splitAtChar_of_not_mem hHere, ih (by simp) hRest]
          rfl

end Text

namespace Path

/-- The components by which paths are compared. The root that an absolute path starts from is the first of them. -/
def lexical (path : Text) : List Text :=
  (if isAbsolute path then [['/']] else []) ++ components path

/-- A path goes on from another one, and never upward from there. -/
def LiesBelow (root path : Text) : Prop :=
  ∃ below, lexical path = lexical root ++ below ∧ ['.', '.'] ∉ below

theorem isAbsolute_append {path : Text} (h : path ≠ []) (s : Text) : isAbsolute (path ++ s) = isAbsolute path := by
  obtain ⟨c, rest, rfl⟩ := List.exists_cons_of_ne_nil h
  rfl

/-- Whether a path is absolute shows in any part of its front. -/
theorem isAbsolute_of_prefix {path above : Text} (h : above <+: path) (hNonempty : above ≠ []) :
    isAbsolute above = isAbsolute path := by
  obtain ⟨rest, rfl⟩ := h
  exact (isAbsolute_append hNonempty rest).symm

/-- Only idle pieces are dropped at an end. -/
theorem exists_withoutIdleEnd {pieces : List Text} (h : pieces ≠ []) :
    ∃ first rest idle, withoutIdleEnd pieces = first :: rest ∧ pieces = first :: rest ++ idle ∧
      (∀ piece ∈ idle, isIdle piece = true) ∧ ∀ last ∈ rest.getLast?, isIdle last = false := by
  obtain ⟨first, rest, rfl⟩ := List.exists_cons_of_ne_nil h
  refine ⟨first, (rest.reverse.dropWhile isIdle).reverse, (rest.reverse.takeWhile isIdle).reverse, rfl, ?_, ?_, ?_⟩
  · rw [List.cons_append, ← List.reverse_append, List.takeWhile_append_dropWhile, List.reverse_reverse]
  · intro piece hPiece
    exact List.all_eq_true.mp List.all_takeWhile piece (List.mem_reverse.mp hPiece)
  · intro last hLast
    rw [List.getLast?_reverse, Option.mem_def] at hLast
    simpa [hLast] using List.head?_dropWhile_not isIdle rest.reverse

/-- A last piece that leads somewhere stays. -/
theorem withoutIdleEnd_concat (pieces : List Text) {last : Text} (h : isIdle last = false) :
    withoutIdleEnd (pieces ++ [last]) = pieces ++ [last] := by
  cases pieces with
  | nil => rfl
  | cons first rest => simp [withoutIdleEnd, h]

/-- Behind its last piece that is not idle a path has no slash. -/
theorem getLast?_join_ne {first : Text} {rest : List Text} (hSlash : ∀ piece ∈ first :: rest, '/' ∉ piece)
    (hEnd : ∀ last ∈ rest.getLast?, isIdle last = false) (hNonempty : Text.join ['/'] (first :: rest) ≠ []) :
    (Text.join ['/'] (first :: rest)).getLast? ≠ some '/' := by
  obtain ⟨front, last, hPieces, hLast⟩ : ∃ front last, first :: rest = front ++ [last] ∧ last ≠ [] := by
    rcases List.eq_nil_or_concat rest with rfl | ⟨front, last, rfl⟩
    · exact ⟨[], first, rfl, hNonempty⟩
    · refine ⟨first :: front, last, by simp, ?_⟩
      rintro rfl
      exact absurd (hEnd [] (by simp)) (by decide)
  obtain ⟨before, hJoined⟩ := Text.suffix_join ['/'] front last
  have hNone : '/' ∉ last := hSlash last (by simp [hPieces])
  rcases List.eq_nil_or_concat last with rfl | ⟨more, c, rfl⟩
  · exact absurd rfl hLast
  · rw [hPieces, ← hJoined]
    simp only [List.concat_eq_append, List.mem_append, List.mem_singleton, not_or] at hNone
    simpa [eq_comm] using hNone.2

/-- The parent of a path is what its pieces but the last one are joined to, or the root. -/
theorem parent?_of_pieces {path first last : Text} {rest : List Text}
    (hSplit : Text.splitAtChar '/' path = first :: rest ++ [last]) (hLast : isIdle last = false) :
    parent? path = some (
      if Text.join ['/'] (withoutIdleEnd (first :: rest)) = [] ∧ isAbsolute path = true then ['/']
      else Text.join ['/'] (withoutIdleEnd (first :: rest))) := by
  obtain ⟨next, others, hOthers⟩ : ∃ next others, rest ++ [last] = next :: others :=
    List.exists_cons_of_ne_nil (by simp)
  have hFront : (first :: next :: others).dropLast = first :: rest := by
    rw [← hOthers, ← List.cons_append, List.dropLast_concat]
  rw [parent?, hSplit, withoutIdleEnd_concat _ hLast, List.cons_append, hOthers]
  simp only [hFront, Bool.and_eq_true, List.isEmpty_iff]

/-- The directory above a path has the pieces of the path but for the last one, and for idle ones at its end. -/
theorem parent?_of_split {path first last : Text} {rest : List Text}
    (hSplit : Text.splitAtChar '/' path = first :: rest ++ [last]) (hLast : isIdle last = false) :
    ∃ above kept idle, parent? path = some above ∧ above ≠ [] ∧ above <+: path ∧
      (above.getLast? ≠ some '/' ∨ above = ['/']) ∧ first :: rest = kept ++ idle ∧
      (∀ piece ∈ idle, isIdle piece = true) ∧
      (Text.splitAtChar '/' above = kept ∨ Text.splitAtChar '/' above = kept ++ [[]]) := by
  have hPath : Text.join ['/'] (first :: rest ++ [last]) = path := by rw [← hSplit, Text.join_splitAtChar]
  obtain ⟨first', kept, idle, hKept, hWhole, hIdle, hEnd⟩ := exists_withoutIdleEnd (List.cons_ne_nil first rest)
  have hMore : idle ++ [last] ≠ [] := by simp
  have hSlash : ∀ piece ∈ first' :: kept, '/' ∉ piece := by
    intro piece hPiece
    have hMem : piece ∈ Text.splitAtChar '/' path := by
      rw [hSplit, hWhole]
      exact List.mem_append_left _ (List.mem_append_left _ hPiece)
    exact Text.not_mem_of_mem_splitAtChar hMem
  have hParts : path = Text.join ['/'] (first' :: kept) ++ '/' :: Text.join ['/'] (idle ++ [last]) := by
    rw [← hPath, hWhole, List.append_assoc, Text.join_append _ (List.cons_ne_nil _ _) hMore]
    simp
  have hSplitAbove : Text.splitAtChar '/' (Text.join ['/'] (first' :: kept)) = first' :: kept :=
    Text.splitAtChar_join_pieces (List.cons_ne_nil _ _) hSlash
  have hParent := parent?_of_pieces hSplit hLast
  rw [hKept] at hParent
  by_cases hEmpty : Text.join ['/'] (first' :: kept) = []
  · -- nothing but the root is above
    have hRoot : first' :: kept = [[]] := by rw [← hSplitAbove, hEmpty]; rfl
    rw [hEmpty] at hParts
    rw [if_pos ⟨hEmpty, by rw [hParts]; rfl⟩] at hParent
    refine ⟨['/'], first' :: kept, idle, hParent, by simp, ?_, .inr rfl, hWhole, hIdle, .inr (by rw [hRoot]; rfl)⟩
    rw [hParts]
    exact List.prefix_append ['/'] _
  · rw [if_neg fun h => hEmpty h.1] at hParent
    refine ⟨_, first' :: kept, idle, hParent, hEmpty, ?_, .inl (getLast?_join_ne hSlash hEnd hEmpty), hWhole, hIdle,
      .inl hSplitAbove⟩
    exact ⟨_, hParts.symm⟩

/-- The parent of a path of one piece is the empty path. -/
theorem parent?_of_piece {path last : Text} (hSplit : Text.splitAtChar '/' path = [last])
    (hLast : isIdle last = false) : parent? path = some [] := by
  have hNonempty : last.isEmpty = false := by
    cases last with
    | nil => cases hLast
    | cons c last => rfl
  simp [parent?, hSplit, withoutIdleEnd, hNonempty]

/-- Joining a relative path changes nothing about whether a path is absolute. -/
theorem isAbsolute_join {path below : Text} (hPath : path ≠ []) (hBelow : isAbsolute below = false) :
    isAbsolute (join path below) = isAbsolute path := by
  have hEmpty : path.isEmpty = false := by simpa using hPath
  simp only [join, hBelow, hEmpty, Bool.or_self, Bool.false_eq_true, if_false]
  split <;> exact isAbsolute_append hPath _

/-- The pieces of a joined path are those of its parts, but for idle ones. -/
theorem splitAtChar_join {path below : Text} (hPath : path ≠ []) (hBelow : isAbsolute below = false) :
    ∃ pieces, pieces ≠ [] ∧ Text.splitAtChar '/' (join path below) = pieces ++ Text.splitAtChar '/' below ∧
      (Text.splitAtChar '/' path = pieces ∨ Text.splitAtChar '/' path = pieces ++ [[]]) := by
  have hEmpty : path.isEmpty = false := by simpa using hPath
  simp only [join, hBelow, hEmpty, Bool.or_self, Bool.false_eq_true, if_false, beq_iff_eq]
  split
  · rename_i hSlash
    obtain ⟨front, rfl⟩ := List.getLast?_eq_some_iff.mp hSlash
    refine ⟨Text.splitAtChar '/' front, Text.splitAtChar_ne_nil _ _, ?_, .inr ?_⟩
    · rw [List.append_assoc, List.singleton_append, Text.splitAtChar_append]
    · exact Text.splitAtChar_append '/' front []
  · exact ⟨_, Text.splitAtChar_ne_nil _ _, Text.splitAtChar_append .., .inl rfl⟩

end Path

end IconRegistry
