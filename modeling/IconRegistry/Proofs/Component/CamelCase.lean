import IconRegistry.Component.Jsx
import IconRegistry.Proofs.Path.Pieces

/-! Property names: a name in camel case is put together from the words between its hyphens, and holds every other
character that has no upper case. -/
namespace IconRegistry

theorem Text.mem_join {c : Char} {separator : Text} {pieces : List Text} (h : c ∈ join separator pieces) :
    c ∈ separator ∨ ∃ piece ∈ pieces, c ∈ piece := by
  by_cases hSeparator : c ∈ separator
  · exact .inl hSeparator
  · refine .inr (Classical.byContradiction fun hNone => ?_)
    exact not_mem_join hSeparator (fun piece hPiece hMember => hNone ⟨piece, hPiece, hMember⟩) h

namespace Component

open Text (splitAtChar)

variable {name : Text} {c d : Char}

/-- A name in camel case: its words without the hyphens between them, and each but the first one capitalized. -/
def camelCased (name : Text) : Text :=
  match splitAtChar '-' name with
  | [] => []
  | first :: words => first ++ (words.map capitalize).flatten

/-- Where no colon is to be dropped, only hyphens part the words. -/
theorem camelFrom_eq (hColon : ':' ∉ name) (raise : Bool) {first : Text} {words : List Text}
    (h : splitAtChar '-' name = first :: words) :
    camelFrom raise name = (if raise then capitalize first else first) ++ (words.map capitalize).flatten := by
  induction name generalizing raise first words with
  | nil =>
      cases h
      cases raise <;> rfl
  | cons c rest ih =>
      obtain ⟨hc, hRest⟩ : ':' ≠ c ∧ ':' ∉ rest := by simpa using hColon
      obtain ⟨word, others, hWords⟩ := List.exists_cons_of_ne_nil (Text.splitAtChar_ne_nil '-' rest)
      rw [camelFrom]
      by_cases hHyphen : c = '-'
      · subst hHyphen
        have hSplit : splitAtChar '-' ('-' :: rest) = [] :: word :: others := by
          have hParts := Text.splitAtChar_append '-' [] rest
          rw [hWords] at hParts
          exact hParts
        rw [hSplit] at h
        cases h
        rw [if_pos (by decide), ih hRest true hWords]
        cases raise <;> rfl
      · have hSplit : splitAtChar '-' (c :: rest) = (c :: word) :: others := by
          rw [splitAtChar] at hWords ⊢
          rw [Text.splitWhere, if_neg (by simpa using hHyphen), hWords]
        rw [hSplit] at h
        cases h
        rw [if_neg (by simp [hHyphen, Ne.symm hc]), ih hRest false hWords]
        cases raise <;> simp [capitalize]

/-- Without a colon, a name is put into camel case piece by piece. -/
theorem camelFrom_eq_camelCased (hColon : ':' ∉ name) : camelFrom false name = camelCased name := by
  rw [camelCased]
  split
  · rename_i hNone
    exact absurd hNone (Text.splitAtChar_ne_nil '-' name)
  · rename_i hWords
    exact camelFrom_eq hColon false hWords

/-- A character that is no hyphen and has no upper case stays. -/
theorem mem_camelCased (hc : c ∈ name) (hHyphen : c ≠ '-') (hUpper : Text.upperOf c = [c]) : c ∈ camelCased name := by
  have hJoin := Text.join_splitAtChar '-' name
  obtain ⟨first, words, hWords⟩ := List.exists_cons_of_ne_nil (Text.splitAtChar_ne_nil '-' name)
  rw [← hJoin] at hc
  obtain ⟨piece, hPiece, hMember⟩ := (Text.mem_join hc).resolve_left (by simpa using hHyphen)
  rw [hWords] at hPiece
  simp only [camelCased, hWords, List.mem_append]
  rcases List.mem_cons.mp hPiece with rfl | hPiece
  · exact .inl hMember
  · refine .inr (List.mem_flatten.mpr ⟨capitalize piece, List.mem_map_of_mem hPiece, ?_⟩)
    cases piece with
    | nil => cases hMember
    | cons d rest =>
        rw [capitalize, List.mem_append]
        rcases List.mem_cons.mp hMember with rfl | hMember
        · exact .inl (by simp [hUpper])
        · exact .inr hMember

/-- No hyphen is left in camel case. -/
theorem hyphen_not_mem_camelCased (name : Text) : '-' ∉ camelCased name := by
  intro h
  obtain ⟨first, words, hWords⟩ := List.exists_cons_of_ne_nil (Text.splitAtChar_ne_nil '-' name)
  have hNone : ∀ piece ∈ first :: words, '-' ∉ piece := fun piece hPiece =>
    Text.not_mem_of_mem_splitAtChar (hWords ▸ hPiece)
  simp only [camelCased, hWords, List.mem_append] at h
  rcases h with hFirst | hWord
  · exact hNone first (by simp) hFirst
  · obtain ⟨_, hMap, hMember⟩ := List.mem_flatten.mp hWord
    obtain ⟨piece, hPiece, rfl⟩ := List.mem_map.mp hMap
    have hPieceNone := hNone piece (List.mem_cons_of_mem _ hPiece)
    cases piece with
    | nil => cases hMember
    | cons d rest =>
        obtain ⟨hHere, hRest⟩ : '-' ≠ d ∧ '-' ∉ rest := by simpa using hPieceNone
        rcases List.mem_append.mp hMember with hMember | hMember
        · exact hHere (eq_of_mem_upperOf hMember (by decide))
        · exact hRest hMember

/-- Camel case brings in no characters of ASCII but capital letters, and leaves out hyphens and colons. -/
theorem mem_camelFrom {raise : Bool} (hd : d ∈ camelFrom raise name) (hAscii : d.toNat < 128) (hZero : d.toNat ≠ 0)
    (hLetter : d.isUpper = false) : d ∈ name ∧ d ≠ '-' ∧ d ≠ ':' := by
  induction name generalizing raise with
  | nil => cases hd
  | cons c rest ih =>
      rw [camelFrom] at hd
      split at hd
      · exact ⟨List.mem_cons_of_mem _ (ih hd).1, (ih hd).2⟩
      · rename_i hOther
        rcases List.mem_append.mp hd with hHere | hLater
        · obtain rfl : d = c := by
            split at hHere
            · exact eq_of_mem_upperOf_ascii hHere hAscii hZero hLetter
            · exact List.mem_singleton.mp hHere
          exact ⟨List.mem_cons_self, by simpa using hOther⟩
        · exact ⟨List.mem_cons_of_mem _ (ih hLater).1, (ih hLater).2⟩

/-- A character of ASCII that is no letter is in the property name of an attribute only if it is in the name. -/
theorem mem_camelAttribute (hd : d ∈ camelAttribute name) (hAscii : d.toNat < 128) (hZero : d.toNat ≠ 0)
    (hLetter : d.isAlpha = false) : d ∈ name := by
  have hCases : (d.isUpper || d.isLower) = false := hLetter
  have hUpper : d.isUpper = false := (Bool.or_eq_false_iff.mp hCases).1
  rw [camelAttribute] at hd
  split at hd
  · exact hd
  · split at hd
    · have hLetters : ∀ e ∈ "className".toList, e.isAlpha = true := by decide
      rw [hLetters d hd] at hLetter
      cases hLetter
    · exact (mem_camelFrom hd hAscii hZero hUpper).1

/-- The property name of an attribute is its name in camel case just where the attribute is no exception. -/
theorem camelAttribute_eq_camelCased_iff (hColon : ':' ∉ name) :
    camelAttribute name = camelCased name ↔
      ¬"aria-".toList <+: name ∧ ¬"data-".toList <+: name ∧ name ≠ "class".toList := by
  have hKept : '-' ∈ name → name ≠ camelCased name := fun hHyphen hSame =>
    hyphen_not_mem_camelCased name (hSame ▸ hHyphen)
  rw [camelAttribute]
  split
  · rename_i hException
    simp only [Bool.or_eq_true, List.isPrefixOf_iff_prefix] at hException
    refine iff_of_false (hKept ?_) fun hNone => ?_
    · rcases hException with h | h
      all_goals exact h.subset (by decide)
    · rcases hException with h | h
      · exact hNone.1 h
      · exact hNone.2.1 h
  · rename_i hNone
    simp only [Bool.or_eq_true, List.isPrefixOf_iff_prefix, not_or] at hNone
    split
    · rename_i hClass
      obtain rfl := beq_iff_eq.mp hClass
      exact iff_of_false (by decide) (fun h => h.2.2 rfl)
    · rename_i hOther
      exact iff_of_true (camelFrom_eq_camelCased hColon) ⟨hNone.1, hNone.2, by simpa using hOther⟩

end Component

end IconRegistry
