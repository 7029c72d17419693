import IconRegistry.Component.Name
import IconRegistry.Proofs.Text.UpperCase

/-! Component names hold no separator: the pieces of an icon name hold none, and no upper case brings one in. -/
namespace IconRegistry

namespace Text

variable {separates : Char → Bool} {s : Text} {c : Char}

theorem splitWhere_ne_nil (separates : Char → Bool) (s : Text) : splitWhere separates s ≠ [] := by
  cases s with
  | nil => simp [splitWhere]
  | cons c s =>
      rw [splitWhere]
      split
      · simp
      · split <;> simp

theorem splitWhere_of_forall (h : ∀ c ∈ s, separates c = false) : splitWhere separates s = [s] := by
  induction s with
  | nil => rfl
  | cons c s ih =>
      obtain ⟨hHere, hRest⟩ := List.forall_mem_cons.mp h
      simp [splitWhere, hHere, ih hRest]

/-- A separator parts the pieces in front of it from those behind it. -/
theorem splitWhere_append (h : separates c = true) (s t : Text) :
    splitWhere separates (s ++ c :: t) = splitWhere separates s ++ splitWhere separates t := by
  induction s with
  | nil => simp [splitWhere, h]
  | cons d s ih =>
      rw [List.cons_append, splitWhere, splitWhere, ih]
      split
      · rfl
      · obtain ⟨piece, pieces, hPieces⟩ := List.exists_cons_of_ne_nil (splitWhere_ne_nil separates s)
        simp [hPieces]

end Text

namespace Component

/-- The codes of some punctuation: of the characters that separate the parts of a name, and of the equals sign. -/
def punctuationCodes : List Nat :=
  [45, 95, 32, 58, 47, 46, 61]

theorem mem_punctuationCodes_of_isNameSeparator {c : Char} (h : isNameSeparator c = true) :
    c.toNat ∈ punctuationCodes := by
  have hCode : ∀ d : Char, c = d ↔ c.toNat = d.toNat := fun d => Char.toNat_inj.symm
  simp only [isNameSeparator, Bool.or_eq_true, beq_iff_eq, hCode, Char.reduceToNat] at h
  simp only [punctuationCodes, List.mem_cons]
  omega

/-- Putting characters in upper case brings in no characters of ASCII but capital letters. -/
theorem eq_of_mem_upperOf_ascii {c d : Char} (hd : d ∈ Text.upperOf c) (hAscii : d.toNat < 128) (hZero : d.toNat ≠ 0)
    (hLetter : d.isUpper = false) : d = c := by
  have hCode : ∀ n < 128, (Char.ofNat n).toUpper.isUpper = false → (Char.ofNat n).toUpper = Char.ofNat n := by decide
  rcases Text.upperOf_cases c with ⟨hSmall, hCase⟩ |
    ⟨-, ⟨e, he, -, hCase⟩ | ⟨run, hRun, distance, hDistance, -, hCase⟩ | hCase⟩
  all_goals rw [hCase] at hd
  · obtain rfl : d = c.toUpper := by simpa using hd
    have hUpper := hCode c.toNat hSmall
    rw [Char.ofNat_toNat] at hUpper
    exact hUpper hLetter
  · obtain ⟨n, hn, rfl⟩ := List.mem_map.mp hd
    rw [← Text.eq_of_toNat_ofNat rfl hZero] at hAscii
    rw [Text.isUpper_of_mem_expansion e he n hn hAscii] at hLetter
    cases hLetter
  · obtain rfl : d = Char.ofNat (run.2.2.2 + distance) := by simpa using hd
    have hSame := Text.eq_of_toNat_ofNat rfl hZero
    obtain ⟨hOne, hUpper⟩ := Text.isUpper_of_image run hRun (by omega)
    obtain rfl : distance = 0 := by omega
    rw [Nat.add_zero, hUpper] at hLetter
    cases hLetter
  · simpa using hd

/-- Putting characters in upper case brings in no punctuation. -/
theorem eq_of_mem_upperOf {c d : Char} (hd : d ∈ Text.upperOf c) (hPunctuation : d.toNat ∈ punctuationCodes) :
    d = c := by
  have hAll : ∀ n ∈ punctuationCodes, n < 128 ∧ n ≠ 0 ∧ (Char.ofNat n).isUpper = false := by decide
  obtain ⟨hAscii, hZero, hLetter⟩ := hAll _ hPunctuation
  rw [Char.ofNat_toNat] at hLetter
  exact eq_of_mem_upperOf_ascii hd hAscii hZero hLetter

/-- The upper case of a character that separates no names separates none, either. -/
theorem isNameSeparator_of_mem_upperOf {c d : Char} (hd : d ∈ Text.upperOf c) (hc : isNameSeparator c = false) :
    isNameSeparator d = false := by
  cases hSeparator : isNameSeparator d with
  | false => rfl
  | true =>
      rw [eq_of_mem_upperOf hd (mem_punctuationCodes_of_isNameSeparator hSeparator), hc] at hSeparator
      cases hSeparator

theorem mem_splitWhere {separates : Char → Bool} {s piece : Text} (h : piece ∈ Text.splitWhere separates s) :
    ∀ c ∈ piece, separates c = false := by
  induction s generalizing piece with
  | nil =>
      obtain rfl : piece = [] := by simpa [Text.splitWhere] using h
      simp
  | cons d s ih =>
      rw [Text.splitWhere] at h
      split at h
      · rcases List.mem_cons.mp h with rfl | h
        · simp
        · exact ih h
      · rename_i hKept
        split at h
        · obtain rfl : piece = [d] := by simpa using h
          simpa using hKept
        · rename_i first pieces hPieces
          rcases List.mem_cons.mp h with rfl | h
          · exact List.forall_mem_cons.mpr ⟨by simpa using hKept, ih (by simp [hPieces])⟩
          · exact ih (by simp [hPieces, h])

theorem isNameSeparator_of_mem_pascalCase {icon : Text} {c : Char} (h : c ∈ pascalCase icon) :
    isNameSeparator c = false := by
  obtain ⟨word, hWord, hc⟩ := List.mem_flatten.mp h
  obtain ⟨piece, hPiece, rfl⟩ := List.mem_map.mp hWord
  have hNone := mem_splitWhere hPiece
  cases piece with
  | nil => cases hc
  | cons d rest =>
      obtain ⟨hd, hRest⟩ := List.forall_mem_cons.mp hNone
      rcases List.mem_append.mp hc with hc | hc
      · exact isNameSeparator_of_mem_upperOf hc hd
      · exact hRest c hc

/-- No component name holds a separator. -/
theorem isNameSeparator_of_mem_nameOf {icon : Text} {c : Char} (h : c ∈ nameOf icon) :
    isNameSeparator c = false := by
  have hPascal : ∀ d ∈ pascalCase icon, isNameSeparator d = false := fun d => isNameSeparator_of_mem_pascalCase
  rw [nameOf] at h
  split at h
  · cases h
  · rename_i d rest hCase
    rw [hCase] at hPascal
    split at h
    · rcases List.mem_append.mp h with h | h
      · have hIcon : "Icon".toList.all (fun d => !isNameSeparator d) = true := by decide
        simpa using List.all_eq_true.mp hIcon c h
      · exact hPascal c h
    · exact hPascal c h

end Component

end IconRegistry
