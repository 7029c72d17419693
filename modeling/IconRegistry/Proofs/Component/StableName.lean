import IconRegistry.Proofs.Component.Name

/-! Component names are names of themselves: they begin with a character that is its own upper case, and with no
digit. -/
namespace IconRegistry.Component

variable {icon s t : Text} {c d : Char}

/-- Names are separated at these five characters. -/
theorem isNameSeparator_iff : isNameSeparator c = true ↔ c ∈ "-_ :/.".toList := by
  simp [isNameSeparator, or_assoc]

/-- The parts of a name are put in pascal case one by one. -/
theorem pascalCase_append (h : isNameSeparator c = true) (s t : Text) :
    pascalCase (s ++ c :: t) = pascalCase s ++ pascalCase t := by
  rw [pascalCase, Text.splitWhere_append h, List.map_append, List.flatten_append]
  rfl

/-- A text that has no separators is a part of its own. -/
theorem pascalCase_of_forall (h : ∀ c ∈ s, isNameSeparator c = false) : pascalCase s = capitalize s := by
  rw [pascalCase, Text.splitWhere_of_forall h, List.map_singleton, List.flatten_singleton]

/-- What begins in upper case is capitalized as it is. -/
theorem capitalize_of_head (h : ∀ d ∈ s.head?, Text.upperOf d = [d]) : capitalize s = s := by
  cases s with
  | nil => rfl
  | cons d rest => rw [capitalize, h d rfl, List.singleton_append]

theorem upperOf_of_mem_capitalize_head? (h : d ∈ (capitalize s).head?) : Text.upperOf d = [d] := by
  cases s with
  | nil => cases h
  | cons c rest =>
      obtain ⟨first, others, hCase⟩ := List.exists_cons_of_ne_nil (Text.upperOf_ne_nil c)
      refine Text.upperOf_of_mem_head? (c := c) ?_
      simpa [capitalize, hCase] using h

theorem upperOf_of_mem_pascalCase_head? (h : d ∈ (pascalCase icon).head?) : Text.upperOf d = [d] := by
  rw [pascalCase, List.head?_flatten] at h
  obtain ⟨word, hWord, hHead⟩ := List.exists_of_findSome?_eq_some h
  obtain ⟨piece, -, rfl⟩ := List.mem_map.mp hWord
  exact upperOf_of_mem_capitalize_head? hHead

/-- A component name begins with a character that is its own upper case and no digit. -/
theorem of_mem_nameOf_head? (h : d ∈ (nameOf icon).head?) : Text.upperOf d = [d] ∧ d.isDigit = false := by
  have hPascal : ∀ e ∈ (pascalCase icon).head?, Text.upperOf e = [e] := fun e => upperOf_of_mem_pascalCase_head?
  rw [nameOf] at h
  split at h
  · cases h
  · rename_i e rest hCase
    rw [hCase] at hPascal
    split at h
    · obtain rfl : 'I' = d := by simpa using h
      decide
    · rename_i hDigit
      obtain rfl : e = d := by simpa using h
      exact ⟨hPascal e rfl, by simpa using hDigit⟩

/-- A text that looks like a component name is the name of its component. -/
theorem nameOf_eq_self (hNone : ∀ c ∈ s, isNameSeparator c = false)
    (hHead : ∀ d ∈ s.head?, Text.upperOf d = [d] ∧ d.isDigit = false) : nameOf s = s := by
  rw [nameOf, pascalCase_of_forall hNone, capitalize_of_head fun d hd => (hHead d hd).1]
  cases s with
  | nil => rfl
  | cons d rest => simp [(hHead d rfl).2]

/-- The name of a component is its own component's. -/
theorem nameOf_nameOf (icon : Text) : nameOf (nameOf icon) = nameOf icon :=
  nameOf_eq_self (fun _ => isNameSeparator_of_mem_nameOf) fun _ => of_mem_nameOf_head?

end IconRegistry.Component
