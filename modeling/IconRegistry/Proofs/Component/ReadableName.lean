import Mathlib.Data.List.Chain
import IconRegistry.Component.Name

/-! Readable names: a space stands at each place where a word begins directly behind another one, and the rest of the
name is as it was. A space ends no word and begins none, so the words of a readable name are apart. -/
namespace IconRegistry.Component

variable {previous c : Char} {s : Text}

/-- Whether a word begins at a character behind another one: at an uppercase letter behind a lowercase letter or a
digit. -/
def beginsWord (previous c : Char) : Bool :=
  Text.isUppercase c && (Text.isLowercase previous || previous.isDigit)

/-- In how many places of a text a word begins directly behind another one. -/
def wordBreaks (s : Text) : Nat :=
  (s.zip s.tail).countP fun pair => beginsWord pair.1 pair.2

/-- Whether no word begins directly behind another one. -/
def WordsApart (s : Text) : Prop :=
  s.IsChain fun previous c => beginsWord previous c = false

theorem wordBreaks_cons_cons (previous c : Char) (s : Text) :
    wordBreaks (previous :: c :: s) = wordBreaks (c :: s) + if beginsWord previous c then 1 else 0 :=
  List.countP_cons

theorem beginsWord_space (previous : Char) : beginsWord previous ' ' = false := by
  have hSpace : Text.isUppercase ' ' = false := by decide
  simp [beginsWord, hSpace]

theorem beginsWord_behind_space (c : Char) : beginsWord ' ' c = false := by
  have hSpace : Text.isLowercase ' ' = false := by decide
  simp [beginsWord, hSpace]

theorem readableName_cons (c : Char) (s : Text) : readableName (c :: s) = c :: readableAfter (some c) s := by
  simp [readableName, readableAfter]

theorem readableAfter_of_begins (h : beginsWord previous c = true) (s : Text) :
    readableAfter (some previous) (c :: s) = ' ' :: c :: readableAfter (some c) s := by
  rw [beginsWord] at h
  simp [readableAfter, h]

theorem readableAfter_of_not_begins (h : beginsWord previous c = false) (s : Text) :
    readableAfter (some previous) (c :: s) = c :: readableAfter (some c) s := by
  rw [beginsWord] at h
  simp [readableAfter, h]

/-- The words are apart, also from the character in front of them. -/
theorem wordsApart_readableAfter (previous : Char) (s : Text) :
    WordsApart (previous :: readableAfter (some previous) s) := by
  induction s generalizing previous with
  | nil => exact List.isChain_singleton previous
  | cons c s ih =>
      cases hBegins : beginsWord previous c with
      | true =>
          rw [readableAfter_of_begins hBegins]
          exact List.isChain_cons_cons.mpr
            ⟨beginsWord_space previous, List.isChain_cons_cons.mpr ⟨beginsWord_behind_space c, ih c⟩⟩
      | false =>
          rw [readableAfter_of_not_begins hBegins]
          exact List.isChain_cons_cons.mpr ⟨hBegins, ih c⟩

/-- Where the words are apart already, nothing is added. -/
theorem readableAfter_eq_self (h : WordsApart (previous :: s)) : readableAfter (some previous) s = s := by
  induction s generalizing previous with
  | nil => rfl
  | cons c s ih =>
      obtain ⟨hHere, hRest⟩ := List.isChain_cons_cons.mp h
      rw [readableAfter_of_not_begins hHere, ih hRest]

/-- Without its spaces, a readable name is the name without its own. -/
theorem filter_readableAfter (previous : Char) (s : Text) :
    (readableAfter (some previous) s).filter (· != ' ') = s.filter (· != ' ') := by
  induction s generalizing previous with
  | nil => rfl
  | cons c s ih =>
      cases hBegins : beginsWord previous c with
      | true => simp [readableAfter_of_begins hBegins, List.filter_cons, ih]
      | false => simp [readableAfter_of_not_begins hBegins, List.filter_cons, ih]

/-- Each place where a word begins gets one character, which is one byte. -/
theorem lengths_readableAfter (previous : Char) (s : Text) :
    (readableAfter (some previous) s).length = s.length + wordBreaks (previous :: s) ∧
      Text.byteLength (readableAfter (some previous) s) = Text.byteLength s + wordBreaks (previous :: s) := by
  induction s generalizing previous with
  | nil => exact ⟨rfl, rfl⟩
  | cons c s ih =>
      obtain ⟨hLength, hBytes⟩ := ih c
      have hSpace : Char.utf8Size ' ' = 1 := by decide
      rw [wordBreaks_cons_cons]
      cases hBegins : beginsWord previous c with
      | true =>
          rw [readableAfter_of_begins hBegins]
          simp only [List.length_cons, Text.byteLength, hSpace, hLength, hBytes, if_true]
          omega
      | false =>
          rw [readableAfter_of_not_begins hBegins]
          simp only [List.length_cons, Text.byteLength, hLength, hBytes, Bool.false_eq_true, if_false]
          omega

/-- A name whose words are apart is readable as it is. -/
theorem readableName_eq_self (h : WordsApart s) : readableName s = s := by
  cases s with
  | nil => rfl
  | cons c s => rw [readableName_cons, readableAfter_eq_self h]

/-- A readable name is split wherever a word begins, and once: no word begins behind another one, nothing but spaces
was added, as many as there were such places, and reading it again splits nothing. -/
theorem readableName_splits_once (s : Text) :
    WordsApart (readableName s) ∧
      (readableName s).filter (· != ' ') = s.filter (· != ' ') ∧
      (readableName s).length = s.length + wordBreaks s ∧
      Text.byteLength (readableName s) = Text.byteLength s + wordBreaks s ∧
      readableName (readableName s) = readableName s := by
  cases s with
  | nil => exact ⟨List.isChain_nil, rfl, rfl, rfl, rfl⟩
  | cons c s =>
      have hName := readableName_cons c s
      have hApart : WordsApart (readableName (c :: s)) := hName ▸ wordsApart_readableAfter c s
      obtain ⟨hLength, hBytes⟩ := lengths_readableAfter c s
      refine ⟨hApart, ?_, ?_, ?_, readableName_eq_self hApart⟩
      · rw [hName, List.filter_cons, List.filter_cons, filter_readableAfter]
      · rw [hName, List.length_cons, List.length_cons, hLength]
        omega
      · rw [hName, Text.byteLength, Text.byteLength, hBytes, Nat.add_assoc]

example : readableName "Grid3X3 of HTMLIcons".toList = "Grid3 X3 of HTMLIcons".toList := by decide

end IconRegistry.Component
