import IconRegistry.Proofs.Path.Pieces
import IconRegistry.Proofs.Store.Writing

/-! Where paths lead. A path is followed over directories only, so it leads to the same place in all stores that have
the same directories; files may come, change and go. -/
namespace IconRegistry.Store

theorem node?_erase_same {store : Store} {here : Location} (h : here ≠ []) : (store.erase here).node? here = none := by
  obtain ⟨name, rest, rfl⟩ := List.exists_cons_of_ne_nil h
  have hNone : ∀ nodes : List (Location × Node), (nodes.filter (·.1 != name :: rest)).lookup (name :: rest) = none := by
    intro nodes
    rw [List.lookup_eq_none_iff]
    intro entry hEntry
    have hOther : entry.1 ≠ name :: rest := by simpa using (List.mem_filter.mp hEntry).2
    simpa using hOther.symm
  simp [node?, erase, hNone]

theorem node?_erase_of_ne (store : Store) {here there : Location} (h : there ≠ here) :
    (store.erase here).node? there = store.node? there := by
  simp [node?, erase, lookup_filter_ne h]

/-- Two stores in which relative paths start from the same location, with the same directories. -/
structure SameDirectories (a b : Store) : Prop where
  base : b.base = a.base
  node : ∀ here, b.node? here = some .directory ↔ a.node? here = some .directory

namespace SameDirectories

variable {a b c : Store}

theorem refl (store : Store) : store.SameDirectories store :=
  ⟨rfl, fun _ => Iff.rfl⟩

theorem trans (hab : a.SameDirectories b) (hbc : b.SameDirectories c) : a.SameDirectories c :=
  ⟨hbc.base.trans hab.base, fun here => (hbc.node here).trans (hab.node here)⟩

end SameDirectories

section

variable {store : Store} {here there : Location}

/-- A file in the place of something that is no directory leaves the directories. -/
theorem sameDirectories_put (h : store.node? here ≠ some .directory) (text : Text) :
    store.SameDirectories (store.put here (.file text)) := by
  refine ⟨rfl, fun place => ?_⟩
  by_cases hPlace : place = here
  · subst hPlace
    have hRoot : place ≠ [] := by
      rintro rfl
      exact h rfl
    simp [node?_put_same hRoot, h]
  · rw [node?_put_of_ne store hPlace]

/-- Taking away what is no directory keeps the directories. -/
theorem sameDirectories_erase (h : store.node? here ≠ some .directory) :
    store.SameDirectories (store.erase here) := by
  refine ⟨rfl, fun place => ?_⟩
  by_cases hPlace : place = here
  · subst hPlace
    have hRoot : place ≠ [] := by
      rintro rfl
      exact h rfl
    simp [node?_erase_same hRoot, h]
  · rw [node?_erase_of_ne store hPlace]

/-- The location that a piece of a path leads to from a directory, if its name is not too long. -/
def step? (piece : Text) (here : Location) : Option Location :=
  if Path.isIdle piece then some here
  else if Path.isUpward piece then some here.dropLast
  else if Text.byteLength piece > longestName then none
  else some (here ++ [piece])

/-- A piece is followed from a directory, and the rest from where it leads. -/
theorem follow_cons_eq_ok {piece : Text} {rest : List Text} :
    store.follow (piece :: rest) here = .ok there ↔
      store.node? here = some .directory ∧ ∃ next, step? piece here = some next ∧ store.follow rest next = .ok there := by
  rw [follow]
  cases hNode : store.node? here with
  | none => simp
  | some node =>
      cases node with
      | directory =>
          simp only [step?]
          split_ifs <;> simp
      | file text => simp
      | binary bytes => simp

/-- Pieces in a row are followed one part after the other. -/
theorem follow_append_eq_ok {front rest : List Text} :
    store.follow (front ++ rest) here = .ok there ↔
      ∃ middle, store.follow front here = .ok middle ∧ store.follow rest middle = .ok there := by
  induction front generalizing here with
  | nil => simp [follow]
  | cons piece front ih =>
      simp only [List.cons_append, follow_cons_eq_ok, ih]
      constructor
      · rintro ⟨hHere, next, hNext, middle, hFront, hRest⟩
        exact ⟨middle, ⟨hHere, next, hNext, hFront⟩, hRest⟩
      · rintro ⟨middle, ⟨hHere, next, hNext, hFront⟩, hRest⟩
        exact ⟨hHere, next, hNext, middle, hFront, hRest⟩

/-- Idle pieces lead from a directory to itself. -/
theorem follow_idle {pieces : List Text} (h : ∀ piece ∈ pieces, Path.isIdle piece = true)
    (hHere : store.node? here = some .directory) : store.follow pieces here = .ok here := by
  induction pieces with
  | nil => rfl
  | cons piece rest ih =>
      obtain ⟨hPiece, hRest⟩ := List.forall_mem_cons.mp h
      exact follow_cons_eq_ok.mpr ⟨hHere, here, by simp [step?, hPiece], ih hRest⟩

theorem eq_of_follow_idle {pieces : List Text} (h : ∀ piece ∈ pieces, Path.isIdle piece = true)
    (hFollow : store.follow pieces here = .ok there) : there = here := by
  induction pieces with
  | nil => exact (Except.ok.inj hFollow).symm
  | cons piece rest ih =>
      obtain ⟨hPiece, hRest⟩ := List.forall_mem_cons.mp h
      obtain ⟨-, next, hNext, hFollow⟩ := follow_cons_eq_ok.mp hFollow
      obtain rfl : here = next := by simpa [step?, hPiece] using hNext
      exact ih hRest hFollow

end

theorem SameDirectories.follow_iff {a b : Store} (h : a.SameDirectories b) {pieces : List Text}
    {here there : Location} : b.follow pieces here = .ok there ↔ a.follow pieces here = .ok there := by
  induction pieces generalizing here with
  | nil => rfl
  | cons piece rest ih => simp only [follow_cons_eq_ok, h.node, ih]

def start (store : Store) (path : Text) : Location :=
  if Path.isAbsolute path then [] else store.base

section

variable {store : Store} {path : Text} {here : Location}

/-- A path can be located if it has no null character, is neither empty nor too long, and its pieces can be followed.
-/
theorem locate_eq_ok :
    store.locate path = .ok here ↔ '\x00' ∉ path ∧ path ≠ [] ∧ Text.byteLength path ≤ longestPath ∧
      store.follow (Text.splitAtChar '/' path) (store.start path) = .ok here := by
  rw [start]
  by_cases hNul : '\x00' ∈ path
  · simp [locate, hNul]
  by_cases hEmpty : path = []
  · simp [locate, hEmpty]
  by_cases hLong : longestPath < Text.byteLength path
  · simp [locate, hNul, hEmpty, hLong, Nat.not_le.mpr hLong]
  · simp [locate, hNul, hEmpty, hLong, Nat.not_lt.mp hLong]

/-- What a path leads to depends on the directories only. -/
theorem SameDirectories.locate_iff {a b : Store} (h : a.SameDirectories b) :
    b.locate path = .ok here ↔ a.locate path = .ok here := by
  have hStart : b.start path = a.start path := by rw [start, start, h.base]
  rw [locate_eq_ok, locate_eq_ok, hStart, h.follow_iff]

/-- A store contains what can be located and is there. -/
theorem contains_iff :
    store.contains path = true ↔ ∃ here node, store.locate path = .ok here ∧ store.node? here = some node := by
  rw [contains, find?]
  cases hLocate : store.locate path with
  | error e => simp [Except.toOption]
  | ok here => simp [Except.toOption, Option.isSome_iff_exists]

theorem hasDirectory_iff :
    store.hasDirectory path = true ↔ ∃ here, store.locate path = .ok here ∧ store.node? here = some .directory := by
  rw [hasDirectory, find?]
  cases hLocate : store.locate path with
  | error e => simp [Except.toOption]
  | ok here => simp [Except.toOption]

theorem SameDirectories.hasDirectory_iff {a b : Store} (h : a.SameDirectories b) :
    b.hasDirectory path = true ↔ a.hasDirectory path = true := by
  simp only [Store.hasDirectory_iff, h.locate_iff, h.node]

/-- A file is removed where there is one. -/
theorem removeFile_eq_ok {changed : Store} :
    store.removeFile path = .ok changed ↔
      ∃ here node, store.locate path = .ok here ∧ store.node? here = some node ∧ node ≠ .directory ∧
        changed = store.erase here := by
  rw [removeFile]
  cases store.locate path with
  | error e => simp [bind, Except.bind]
  | ok here =>
      cases hNode : store.node? here with
      | none => simp [bind, Except.bind, throw, throwThe, MonadExceptOf.throw, hNode]
      | some node =>
          cases node <;>
            simp [bind, Except.bind, throw, throwThe, MonadExceptOf.throw, pure, Except.pure, hNode, eq_comm]

/-- A file is written where there is no directory. -/
theorem writeText_eq_ok {text : Text} {changed : Store} (h : path.getLast? ≠ some '/') :
    store.writeText path text = .ok changed ↔
      ∃ here, store.locate path = .ok here ∧ store.node? here ≠ some .directory ∧
        changed = store.put here (.file text) := by
  have hSlashed : (path.getLast? == some '/') = false := by simpa using h
  rw [writeText, locateEntry_of_getLast? h]
  cases store.locate path with
  | error e => simp [bind, Except.bind]
  | ok here =>
      cases hNode : store.node? here with
      | none => simp [bind, Except.bind, pure, Except.pure, hNode, hSlashed, eq_comm]
      | some node =>
          cases node <;>
            simp [bind, Except.bind, throw, throwThe, MonadExceptOf.throw, pure, Except.pure, hNode, hSlashed,
              eq_comm]

/-- A file reads as it was written. -/
theorem readText_of_writeText {text : Text} {changed : Store} (h : store.writeText path text = .ok changed) :
    changed.readText path = .ok text := by
  obtain ⟨here, hLocate, hNode, rfl⟩ := (writeText_eq_ok (getLast?_of_writeText h)).mp h
  have hRoot : here ≠ [] := by
    rintro rfl
    exact hNode rfl
  exact readText_eq_ok.mpr ⟨here, (sameDirectories_put hNode text).locate_iff.mpr hLocate, node?_put_same hRoot _⟩

end

/-- The locations that pieces of a path come by, to where they lead. -/
def trailFrom : List Text → Location → List Location
  | [], here => [here]
  | piece :: rest, here =>
    here :: match step? piece here with
      | some next => trailFrom rest next
      | none => []

def trail (store : Store) (path : Text) : List Location :=
  trailFrom (Text.splitAtChar '/' path) (store.start path)

/-- Where pieces lead depends on what is on the way only. -/
theorem follow_congr {a b : Store} {pieces : List Text} {here : Location}
    (h : ∀ there ∈ trailFrom pieces here, b.node? there = a.node? there) :
    b.follow pieces here = a.follow pieces here := by
  induction pieces generalizing here with
  | nil => rfl
  | cons piece rest ih =>
      rw [trailFrom, List.forall_mem_cons] at h
      obtain ⟨hHere, hRest⟩ := h
      rw [follow, follow, hHere]
      split
      · rfl
      · rw [step?] at hRest
        split_ifs at hRest ⊢ with hIdle hUpward hLong
        · exact ih hRest
        · exact ih hRest
        · rfl
        · exact ih hRest
      · rfl

theorem mem_trailFrom {store : Store} {pieces : List Text} {here there : Location}
    (h : store.follow pieces here = .ok there) : there ∈ trailFrom pieces here := by
  induction pieces generalizing here with
  | nil =>
      obtain rfl := Except.ok.inj h
      exact List.mem_singleton_self _
  | cons piece rest ih =>
      obtain ⟨-, next, hNext, hRest⟩ := follow_cons_eq_ok.mp h
      rw [trailFrom, hNext]
      exact List.mem_cons_of_mem _ (ih hRest)

/-- Two stores in which relative paths start from the same location, and which differ at certain places at most. -/
structure SameExcept (places : Location → Prop) (a b : Store) : Prop where
  base : b.base = a.base
  node : ∀ here, ¬places here → b.node? here = a.node? here

namespace SameExcept

variable {places : Location → Prop} {a b c : Store}

theorem refl (places : Location → Prop) (store : Store) : store.SameExcept places store :=
  ⟨rfl, fun _ _ => rfl⟩

theorem trans (hab : a.SameExcept places b) (hbc : b.SameExcept places c) : a.SameExcept places c :=
  ⟨hbc.base.trans hab.base, fun here h => (hbc.node here h).trans (hab.node here h)⟩

/-- What is read along a path stays the same if nothing on the way changes. -/
theorem readText (h : a.SameExcept places b) {path : Text} (hTrail : ∀ there ∈ a.trail path, ¬places there) :
    b.readText path = a.readText path := by
  have hStart : b.start path = a.start path := by rw [start, start, h.base]
  have hFollow : b.follow (Text.splitAtChar '/' path) (a.start path) =
      a.follow (Text.splitAtChar '/' path) (a.start path) :=
    follow_congr fun there hThere => h.node there (hTrail there hThere)
  have hLocate : b.locate path = a.locate path := by
    rw [locate, locate, ← start, ← start, hStart, hFollow]
  rw [Store.readText, Store.readText, hLocate]
  cases hHere : a.locate path with
  | error e => rfl
  | ok here =>
      have hOnTrail : here ∈ a.trail path := mem_trailFrom (locate_eq_ok.mp hHere).2.2.2
      simp only [bind, Except.bind]
      rw [h.node here (hTrail here hOnTrail)]

end SameExcept

theorem sameExcept_put {places : Location → Prop} {store : Store} {here : Location} (h : places here) (node : Node) :
    store.SameExcept places (store.put here node) := by
  refine ⟨rfl, fun there hThere => node?_put_of_ne store ?_ node⟩
  rintro rfl
  exact hThere h

theorem sameExcept_erase {places : Location → Prop} {store : Store} {here : Location} (h : places here) :
    store.SameExcept places (store.erase here) := by
  refine ⟨rfl, fun there hThere => node?_erase_of_ne store ?_⟩
  rintro rfl
  exact hThere h

end IconRegistry.Store
