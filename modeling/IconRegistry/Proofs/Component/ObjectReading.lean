import IconRegistry.Proofs.Component.CallReading
import IconRegistry.Proofs.Component.CamelCase

/-! Object literals of strings as scripts read them. A key is a name or a string literal, and a text with a key that is
neither is no object literal, however the rest of it is written. -/
namespace IconRegistry.Component

open Script (IsIdentifier isNamePart)

/-- The key at the front, which is a name or a string literal, and what stands behind it. -/
def key? (s : Text) : Option (Text × Text) :=
  match s with
  | '"' :: _ => literal? s
  | _ =>
    let word := s.takeWhile isNamePart
    if IsIdentifier word then some (word, s.dropWhile isNamePart) else none

/-- The key at the front, and what stands behind the colon that follows it. -/
def keyBefore? (s : Text) : Option (Text × Text) := do
  let (key, s) ← key? s
  return (key, ← Text.dropFront? ": ".toList s)

/-- The properties up to a closing brace that ends the text. -/
def entriesWithin? : (fuel : Nat) → Text → Option (List (Text × Text))
  | 0, _ => none
  | fuel + 1, s => do
    let (key, s) ← keyBefore? s
    let (value, s) ← literal? s
    match Text.dropFront? ", ".toList s with
    | some s => return (key, value) :: (← entriesWithin? fuel s)
    | none => if s = " \x7d".toList then some [(key, value)] else none

/-- The properties of an object literal of strings, in order. Every property takes at least one character. -/
def objectEntries? (s : Text) : Option (List (Text × Text)) :=
  match Text.dropFront? "\x7b ".toList s with
  | some inside => entriesWithin? inside.length inside
  | none => if s = "\x7b\x7d".toList then some [] else none

/-- The key that stands for itself in an object literal if it is a name. -/
def nameKey? (word : Text) : Option Text :=
  if IsIdentifier word then some word else none

theorem keyBefore?_stringLiteral (key rest : Text) :
    keyBefore? (stringLiteral key ++ (": ".toList ++ rest)) = some (key, rest) := by
  have hLiteral := literal?_stringLiteral key (": ".toList ++ rest)
  rw [stringLiteral, List.cons_append, List.cons_append] at hLiteral ⊢
  simp only [keyBefore?, key?, hLiteral, Option.bind_eq_bind, Option.bind_some, Text.dropFront?_append]
  rfl

/-- Of a key without quotation marks, what begins it as a name is read. -/
theorem keyBefore?_front {front : Text} (hParts : ∀ c ∈ front, isNamePart c = true) {d : Char}
    (hd : isNamePart d = false) (hQuote : '"' ∉ front ++ [d]) (s : Text) :
    keyBefore? (front ++ d :: s) =
      if IsIdentifier front then (Text.dropFront? ": ".toList (d :: s)).map fun rest => (front, rest) else none := by
  have hTake : (front ++ d :: s).takeWhile isNamePart = front := by
    rw [List.takeWhile_append_of_pos hParts, List.takeWhile_cons_of_neg (by simp [hd]), List.append_nil]
  have hDrop : (front ++ d :: s).dropWhile isNamePart = d :: s := by
    rw [List.dropWhile_append_of_pos hParts, List.dropWhile_cons_of_neg (by simp [hd])]
  have hKey : key? (front ++ d :: s) = if IsIdentifier front then some (front, d :: s) else none := by
    rw [key?]
    · rw [hTake, hDrop]
    · intro rest hQuoted
      cases front with
      | nil => exact hQuote (by simp [(List.cons_eq_cons.mp hQuoted).1])
      | cons c front => exact hQuote (by simp [(List.cons_eq_cons.mp hQuoted).1])
  rw [keyBefore?, hKey]
  split
  · exact (Option.map_eq_bind ..).symm
  · rfl

/-- A key without quotation marks is read just where it is a name. -/
theorem keyBefore?_word {word : Text} (hQuote : '"' ∉ word) (hColon : ':' ∉ word) (rest : Text) :
    keyBefore? (word ++ (": ".toList ++ rest)) = (nameKey? word).map fun key => (key, rest) := by
  have hParts : ∀ c ∈ word.takeWhile isNamePart, isNamePart c = true :=
    fun c hc => List.all_eq_true.mp List.all_takeWhile c hc
  have hWhole : word.takeWhile isNamePart ++ word.dropWhile isNamePart = word := List.takeWhile_append_dropWhile
  rw [nameKey?]
  cases hRest : word.dropWhile isNamePart with
  | nil =>
      rw [hRest, List.append_nil] at hWhole
      rw [hWhole] at hParts
      have hFront := keyBefore?_front hParts (d := ':') (by decide) (by simpa using hQuote) (' ' :: rest)
      have hDropped : Text.dropFront? ": ".toList (':' :: ' ' :: rest) = some rest :=
        Text.dropFront?_append ": ".toList rest
      rw [hDropped] at hFront
      refine hFront.trans ?_
      split <;> rfl
  | cons d more =>
      -- what is left of the word stands where the colon of the property should be
      rw [hRest] at hWhole
      have hd : isNamePart d = false := by
        have hHead := List.head?_dropWhile_not isNamePart word
        rw [hRest] at hHead
        simpa using hHead
      have hMember : d ∈ word := hWhole ▸ List.mem_append_right _ List.mem_cons_self
      have hNone : ¬IsIdentifier word := by
        intro hName
        rw [hName.parts hMember] at hd
        cases hd
      have hOther : (':' == d) = false := by
        rw [beq_eq_false_iff_ne]
        rintro rfl
        exact hColon hMember
      have hNoColon : ∀ s, Text.dropFront? ": ".toList (d :: s) = none := by simp [Text.dropFront?, hOther]
      have hFront := keyBefore?_front hParts hd (fun hQuoted => hQuote ?_) (more ++ (": ".toList ++ rest))
      · rw [hNoColon, ← List.cons_append, ← List.append_assoc, hWhole] at hFront
        rw [hFront, if_neg hNone]
        split <;> rfl
      · rcases List.mem_append.mp hQuoted with hHere | hHere
        · exact (List.takeWhile_prefix _).subset hHere
        · rwa [List.mem_singleton.mp hHere]

section Entries

variable {written : Text → Text} {read? : Text → Option Text}

/-- A property as it is written, given how its key is. -/
def writtenEntry (written : Text → Text) (entry : Text × Text) : Text :=
  written entry.1 ++ ": ".toList ++ stringLiteral entry.2

/-- The properties of an object literal are read if their keys are. -/
theorem objectEntries?_objectLiteral {entries : List (Text × Text)}
    (hKeys : ∀ entry ∈ entries, ∀ rest,
      keyBefore? (written entry.1 ++ (": ".toList ++ rest)) = (read? entry.1).map fun key => (key, rest)) :
    objectEntries? (objectLiteral (entries.map (writtenEntry written))) =
      entries.mapM fun entry => (read? entry.1).map fun key => (key, entry.2) := by
  have hInside : ∀ fuel, entries ≠ [] → (Text.join ", ".toList (entries.map (writtenEntry written))).length ≤ fuel →
      entriesWithin? fuel (Text.join ", ".toList (entries.map (writtenEntry written)) ++ " \x7d".toList) =
        entries.mapM fun entry => (read? entry.1).map fun key => (key, entry.2) := by
    induction entries with
    | nil => exact fun _ hSome => absurd rfl hSome
    | cons entry others ih =>
        intro fuel _ hFuel
        obtain ⟨hHere, hOthers⟩ := List.forall_mem_cons.mp hKeys
        have hStep : ∀ n behind, entriesWithin? (n + 1) (writtenEntry written entry ++ behind) =
            (read? entry.1).bind fun key => match Text.dropFront? ", ".toList behind with
              | some more => (entriesWithin? n more).map fun found => (key, entry.2) :: found
              | none => if behind = " \x7d".toList then some [(key, entry.2)] else none := by
          intro n behind
          rw [entriesWithin?, writtenEntry, List.append_assoc, List.append_assoc, hHere]
          cases read? entry.1 with
          | none => rfl
          | some key =>
              simp only [Option.map_some, Option.bind_eq_bind, Option.bind_some, literal?_stringLiteral]
              split
              · exact (Option.map_eq_bind ..).symm
              · rfl
        rw [List.mapM_cons]
        by_cases hLast : others = []
        · subst hLast
          rw [List.map_singleton, Text.join] at hFuel ⊢
          obtain ⟨n, rfl⟩ : ∃ n, fuel = n + 1 := ⟨fuel - 1, by simp [writtenEntry, stringLiteral] at hFuel; omega⟩
          rw [hStep]
          cases read? entry.1 <;> rfl
        · rw [List.map_cons, Text.join_cons _ _ (by simpa using hLast)] at hFuel ⊢
          simp only [List.length_append] at hFuel
          have hComma : ", ".toList.length = 2 := rfl
          obtain ⟨n, rfl⟩ : ∃ n, fuel = n + 1 := ⟨fuel - 1, by omega⟩
          simp only [List.append_assoc] at ih ⊢
          rw [hStep]
          simp only [Text.dropFront?_append]
          rw [ih hOthers n hLast (by omega)]
          cases read? entry.1 with
          | none => rfl
          | some key => exact Option.map_eq_bind ..
  rw [objectLiteral]
  by_cases hNone : entries = []
  · subst hNone
    rfl
  · rw [if_neg (by simpa using hNone), objectEntries?, List.append_assoc, Text.dropFront?_append]
    exact hInside _ hNone (by simp)

end Entries

end IconRegistry.Component
