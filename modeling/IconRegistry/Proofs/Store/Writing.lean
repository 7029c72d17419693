import IconRegistry.Store.Basic
import Mathlib.Tactic.SplitIfs

/-! What a store has stays while more is put into it. Paths are followed over directories only, so what is added to a
store does not lead them elsewhere. -/
namespace IconRegistry.Store

/-- A store with all that another one has, each at its place, and perhaps more. -/
structure Extends (store more : Store) : Prop where
  base : more.base = store.base
  node : ∀ here node, store.node? here = some node → more.node? here = some node

theorem Extends.refl (store : Store) : store.Extends store :=
  ⟨rfl, fun _ _ h => h⟩

/-- The root is a directory, whatever a store holds. -/
theorem node?_root (store : Store) : store.node? [] = some .directory := rfl

theorem node?_put_same {store : Store} {here : Location} (h : here ≠ []) (node : Node) :
    (store.put here node).node? here = some node := by
  obtain ⟨name, rest, rfl⟩ := List.exists_cons_of_ne_nil h
  simp [node?, put]

theorem lookup_filter_ne {nodes : List (Location × Node)} {here there : Location} (h : there ≠ here) :
    (nodes.filter (·.1 != here)).lookup there = nodes.lookup there := by
  induction nodes with
  | nil => rfl
  | cons entry rest ih =>
      obtain ⟨place, node⟩ := entry
      by_cases hPlace : place = here
      · subst hPlace
        have hBool : (there == place) = false := by simpa using h
        simp [List.lookup_cons, hBool, ih]
      · simp [hPlace, List.lookup_cons, ih]

theorem node?_put_of_ne (store : Store) {here there : Location} (h : there ≠ here) (node : Node) :
    (store.put here node).node? there = store.node? there := by
  have hBool : (there == here) = false := by simpa using h
  simp [node?, put, List.lookup_cons, hBool, lookup_filter_ne h]

/-- A node where nothing was leaves all else. -/
theorem extends_put {store : Store} {here : Location} (h : store.node? here = none) (node : Node) :
    store.Extends (store.put here node) := by
  refine ⟨rfl, fun there found hFound => ?_⟩
  rw [node?_put_of_ne store _ node, hFound]
  rintro rfl
  rw [h] at hFound
  cases hFound

/-- Paths still lead where they led when a store has more in it. -/
theorem Extends.follow {store more : Store} (h : store.Extends more) {pieces : List Text} {here there : Location}
    (hFollow : store.follow pieces here = .ok there) : more.follow pieces here = .ok there := by
  induction pieces generalizing here with
  | nil => exact hFollow
  | cons piece rest ih =>
      rw [Store.follow] at hFollow ⊢
      cases hNode : store.node? here with
      | none => simp [hNode] at hFollow
      | some node =>
          rw [h.node here node hNode]
          cases node with
          | directory =>
              simp only [hNode] at hFollow ⊢
              split_ifs at hFollow ⊢ with hIdle hUpward hLong
              · exact ih hFollow
              · exact ih hFollow
              · exact ih hFollow
          | file text => simp [hNode] at hFollow
          | binary bytes => simp [hNode] at hFollow

theorem Extends.locate {store more : Store} (h : store.Extends more) {path : Text} {here : Location}
    (hLocate : store.locate path = .ok here) : more.locate path = .ok here := by
  rw [Store.locate] at hLocate ⊢
  rw [h.base]
  split_ifs at hLocate ⊢ with hNul hEmpty hLong hAbsolute
  · exact h.follow hLocate
  · exact h.follow hLocate

/-- A text that is read is that of a file. -/
theorem readText_eq_ok {store : Store} {path text : Text} :
    store.readText path = .ok text ↔
      ∃ here, store.locate path = .ok here ∧ store.node? here = some (.file text) := by
  rw [readText]
  cases store.locate path with
  | error e => simp [bind, Except.bind]
  | ok here =>
      cases hNode : store.node? here with
      | none => simp [bind, Except.bind, throw, throwThe, MonadExceptOf.throw, hNode]
      | some node => cases node <;> simp [bind, Except.bind, throw, throwThe, MonadExceptOf.throw, pure, Except.pure, hNode]

/-- A file that is read stays the same while other things are made. -/
theorem Extends.readText {store more : Store} (h : store.Extends more) {path text : Text}
    (hRead : store.readText path = .ok text) : more.readText path = .ok text := by
  obtain ⟨here, hLocate, hNode⟩ := readText_eq_ok.mp hRead
  exact readText_eq_ok.mpr ⟨here, h.locate hLocate, h.node here _ hNode⟩

/-- A store with all that another one has, and perhaps with more directories. -/
structure AddsDirectories (store more : Store) : Prop where
  base : more.base = store.base
  node : ∀ here, more.node? here = store.node? here ∨
    store.node? here = none ∧ more.node? here = some .directory

namespace AddsDirectories

variable {a b c : Store}

theorem refl (store : Store) : store.AddsDirectories store :=
  ⟨rfl, fun _ => .inl rfl⟩

theorem trans (hab : a.AddsDirectories b) (hbc : b.AddsDirectories c) : a.AddsDirectories c := by
  refine ⟨hbc.base.trans hab.base, fun here => ?_⟩
  rcases hab.node here with hA | ⟨hNone, hA⟩ <;> rcases hbc.node here with hB | ⟨hMiddle, hB⟩
  · exact .inl (hB.trans hA)
  · exact .inr ⟨hA.symm.trans hMiddle, hB⟩
  · exact .inr ⟨hNone, hB.trans hA⟩
  · exact .inr ⟨hNone, hB⟩

theorem toExtends (h : a.AddsDirectories b) : a.Extends b := by
  refine ⟨h.base, fun here node hNode => ?_⟩
  rcases h.node here with hSame | ⟨hNone, -⟩
  · rw [hSame, hNode]
  · rw [hNone] at hNode
    cases hNode

end AddsDirectories

theorem addsDirectories_put {store : Store} {here : Location} (h : store.node? here = none) :
    store.AddsDirectories (store.put here .directory) := by
  refine ⟨rfl, fun there => ?_⟩
  by_cases hThere : there = here
  · subst hThere
    have hRoot : there ≠ [] := by
      rintro rfl
      cases h
    exact .inr ⟨h, node?_put_same hRoot _⟩
  · exact .inl (node?_put_of_ne store hThere _)

/-- A directory is made where there is nothing. -/
theorem makeDirectory_eq_ok {store made : Store} {path : Text} :
    store.makeDirectory path = .ok made ↔
      ∃ here, store.locateEntry path = .ok here ∧ store.node? here = none ∧ made = store.put here .directory := by
  rw [makeDirectory]
  cases store.locateEntry path with
  | error e => simp [bind, Except.bind]
  | ok here =>
      cases hNode : store.node? here with
      | none => simp [bind, Except.bind, pure, Except.pure, hNode, eq_comm]
      | some node => simp [bind, Except.bind, throw, throwThe, MonadExceptOf.throw, hNode]

/-- Making a directory adds it, or nothing. -/
theorem makeDirectory_addsDirectories {store made : Store} {path : Text} (h : store.makeDirectory path = .ok made) :
    store.AddsDirectories made := by
  obtain ⟨here, -, hNode, rfl⟩ := makeDirectory_eq_ok.mp h
  exact addsDirectories_put hNode

/-- Nothing but directories is made, also where making them fails. -/
theorem makeDirectoriesFrom_addsDirectories (paths : List Text) (store : Store) :
    store.AddsDirectories (makeDirectoriesFrom paths store).1 := by
  induction paths with
  | nil => exact .refl store
  | cons path above ih =>
      rw [makeDirectoriesFrom]
      split_ifs with hEmpty
      · exact .refl store
      · cases hMade : store.makeDirectory path with
        | ok made => exact makeDirectory_addsDirectories hMade
        | error e =>
            cases hRest : makeDirectoriesFrom above store with
            | mk made result =>
                rw [hRest] at ih
                cases e with
                | notFound =>
                    cases result with
                    | error e => exact ih
                    | ok done =>
                        cases hAgain : made.makeDirectory path with
                        | ok again => simpa [hAgain] using ih.trans (makeDirectory_addsDirectories hAgain)
                        | error e => simpa [hAgain] using ih
                | _ => exact .refl store

/-- Making directories adds directories and nothing else, even if it fails on the way. -/
theorem makeDirectories_addsDirectories (store : Store) (path : Text) :
    store.AddsDirectories (store.makeDirectories path).1 :=
  makeDirectoriesFrom_addsDirectories ..

/-- An entry is where its path leads, unless the path ends in a slash. -/
theorem locateEntry_of_getLast? {store : Store} {path : Text} (h : path.getLast? ≠ some '/') :
    store.locateEntry path = store.locate path := by
  have hSame : Path.withoutSlashes path = path := by
    rcases List.eq_nil_or_concat path with rfl | ⟨front, c, rfl⟩
    · rfl
    · have hc : c ≠ '/' := by simpa using h
      simp [Path.withoutSlashes, hc]
  rw [locateEntry, hSame]
  simp

/-- What is written is written to a path without a slash at its end. -/
theorem getLast?_of_writeText {store changed : Store} {path text : Text} (h : store.writeText path text = .ok changed) :
    path.getLast? ≠ some '/' := by
  intro hSlash
  rw [writeText] at h
  cases hEntry : store.locateEntry path with
  | error e => simp [hEntry, bind, Except.bind] at h
  | ok here =>
      cases hNode : store.node? here with
      | none => simp [hEntry, hNode, hSlash, bind, Except.bind, throw, throwThe, MonadExceptOf.throw] at h
      | some node =>
          cases node <;> simp [hEntry, hNode, hSlash, bind, Except.bind, throw, throwThe, MonadExceptOf.throw] at h

end IconRegistry.Store
