import IconRegistry.Text.Basic

/-! Results of programs that may fail. -/
namespace IconRegistry

/-- A sequence succeeds if its first part does and then the rest does. -/
theorem bind_eq_ok {ε α β : Type} {first : Except ε α} {next : α → Except ε β} {b : β} :
    (first >>= next) = .ok b ↔ ∃ a, first = .ok a ∧ next a = .ok b := by
  cases first with
  | error e =>
      constructor
      · intro h
        cases h
      · rintro ⟨a, h, -⟩
        cases h
  | ok a =>
      constructor
      · exact fun h => ⟨a, rfl, h⟩
      · rintro ⟨_, h, hNext⟩
        cases h
        exact hNext

/-- A sequence fails where one of its parts does. -/
theorem bind_eq_error {ε α β : Type} {first : Except ε α} {next : α → Except ε β} {e : ε} :
    (first >>= next) = .error e ↔ first = .error e ∨ ∃ a, first = .ok a ∧ next a = .error e := by
  cases first with
  | error e' =>
      constructor
      · intro h
        cases h
        exact .inl rfl
      · rintro (h | ⟨a, h, -⟩) <;> cases h
        rfl
  | ok a =>
      constructor
      · exact fun h => .inr ⟨a, rfl, h⟩
      · rintro (h | ⟨a', h, hNext⟩) <;> cases h
        exact hNext

theorem eq_ok_of_toOption {ε α : Type} {result : Except ε α} {a : α} (h : result.toOption = some a) :
    result = .ok a := by
  cases result with
  | error e => simp [Except.toOption] at h
  | ok found =>
      obtain rfl : found = a := by simpa [Except.toOption] using h
      rfl

/-- Why a program failed, if it did. -/
def failure? {ε α : Type} : Except ε α → Option ε
  | .ok _ => none
  | .error e => some e

/-- A sequence that ends without a failure fails where its first part does. -/
theorem failure?_bind {ε α β : Type} (first : Except ε α) {next : α → Except ε β}
    (h : ∀ a, failure? (next a) = none) : failure? (first >>= next) = failure? first := by
  cases first with
  | error e => rfl
  | ok a => exact h a

/-- A failure is the same, whatever would have been made of a success. -/
theorem failure?_map {ε α β : Type} (result : Except ε α) (f : α → β) : failure? (result.map f) = failure? result := by
  cases result with
  | error | ok => rfl

theorem eq_error_of_failure? {ε α : Type} {result : Except ε α} {e : ε} (h : failure? result = some e) :
    result = .error e := by
  cases result with
  | ok found => cases h
  | error cause => rw [Option.some.inj h]

theorem failure?_eq_some {ε α : Type} {result : Except ε α} {e : ε} : failure? result = some e ↔ result = .error e := by
  constructor
  · exact eq_error_of_failure?
  · rintro rfl
    rfl

/-- A list of partial results is one result where all of them are there. -/
theorem mapM_eq_some_iff {α β : Type} {f : α → Option β} {items : List α} {found : List β} :
    items.mapM f = some found ↔ items.map f = found.map some := by
  induction items generalizing found with
  | nil =>
      rw [List.mapM_nil, List.map_nil]
      cases found <;> simp
  | cons a items ih =>
      rw [List.mapM_cons, List.map_cons]
      cases found with
      | nil => cases f a <;> cases items.mapM f <;> simp
      | cons b found =>
          rw [List.map_cons, List.cons_eq_cons, ← ih]
          cases f a <;> cases items.mapM f <;> simp

end IconRegistry
