import IconRegistry.Proofs.Store.Following
import IconRegistry.Store.IconSource

/-! How stores change. Where directories, files and nothing stay what they are, paths lead to the same places, and what
is read there changes with the text of the file alone. -/
namespace IconRegistry

namespace Store

/-- Two stores that have the same at every location. -/
structure Same (a b : Store) : Prop where
  base : b.base = a.base
  node : ∀ here, b.node? here = a.node? here

/-- Whether there is a directory at a location, or a file, or nothing. -/
def kind? (store : Store) (here : Location) : Option Bool :=
  (store.node? here).map (· == .directory)

/-- Two stores with directories at the same locations, and files at the same locations. -/
structure SameKinds (a b : Store) : Prop where
  base : b.base = a.base
  kind : ∀ here, b.kind? here = a.kind? here

/-- The text of one file is another one, and all else is as it was. -/
structure Rewritten (here : Location) (before after : Text) (a b : Store) : Prop where
  base : b.base = a.base
  old : a.node? here = some (.file before)
  new : b.node? here = some (.file after)
  kept : ∀ there, there ≠ here → b.node? there = a.node? there

section

variable {a b c : Store} {here there : Location} {before middle after : Text} {path : Text}

theorem Same.refl (store : Store) : store.Same store :=
  ⟨rfl, fun _ => rfl⟩

theorem SameKinds.trans (hab : a.SameKinds b) (hbc : b.SameKinds c) : a.SameKinds c :=
  ⟨hbc.base.trans hab.base, fun here => (hbc.kind here).trans (hab.kind here)⟩

theorem kind?_eq_true {store : Store} : store.kind? here = some true ↔ store.node? here = some .directory := by
  simp [kind?]

theorem SameKinds.directory_iff (h : a.SameKinds b) : b.node? here = some .directory ↔ a.node? here = some .directory := by
  rw [← kind?_eq_true, ← kind?_eq_true, h.kind]

/-- One file in the place of another. -/
theorem sameKinds_put {store : Store} {node : Node} (h : store.node? here = some node) (hFile : node ≠ .directory)
    (text : Text) : store.SameKinds (store.put here (.file text)) := by
  refine ⟨rfl, fun there => ?_⟩
  by_cases hThere : there = here
  · subst hThere
    have hRoot : there ≠ [] := by
      rintro rfl
      exact hFile (Option.some.inj h).symm
    have hOther : (node == .directory) = false := beq_eq_false_iff_ne.mpr hFile
    rw [kind?, kind?, node?_put_same hRoot, h, Option.map_some, Option.map_some, hOther]
    rfl
  · rw [kind?, kind?, node?_put_of_ne store hThere]

/-- Where the same places are directories, paths lead to the same places. -/
theorem SameKinds.follow (h : a.SameKinds b) (pieces : List Text) (here : Location) :
    b.follow pieces here = a.follow pieces here := by
  induction pieces generalizing here with
  | nil => rfl
  | cons piece rest ih =>
      have hKind := h.kind here
      rw [kind?, kind?] at hKind
      simp only [Store.follow, ih]
      cases hB : b.node? here with
      | none =>
          cases hA : a.node? here with
          | none => rfl
          | some node => simp [hA, hB] at hKind
      | some node =>
          cases hA : a.node? here with
          | none => simp [hA, hB] at hKind
          | some other => cases node <;> cases other <;> first | rfl | simp [hA, hB] at hKind

/-- A path leads to the same location, or fails for the same reason. -/
theorem SameKinds.locate (h : a.SameKinds b) (path : Text) : b.locate path = a.locate path := by
  rw [Store.locate, Store.locate, h.base, h.follow]

theorem SameKinds.contains (h : a.SameKinds b) (path : Text) : b.contains path = a.contains path := by
  have hSome : ∀ here, (b.node? here).isSome = (a.node? here).isSome := by
    intro here
    simpa [kind?] using congrArg Option.isSome (h.kind here)
  rw [Store.contains, Store.contains, find?, find?, h.locate]
  cases a.locate path with
  | error e => rfl
  | ok here => exact hSome here

/-- A file whose node is kept is read alike. -/
theorem SameKinds.readText (h : a.SameKinds b)
    (hNode : ∀ here, a.locate path = .ok here → b.node? here = a.node? here) : b.readText path = a.readText path := by
  rw [Store.readText, Store.readText, h.locate]
  cases hLocate : a.locate path with
  | error e => rfl
  | ok here =>
      simp only [bind, Except.bind]
      rw [hNode here hLocate]

namespace Rewritten

theorem sameKinds (h : a.Rewritten here before after b) : a.SameKinds b := by
  refine ⟨h.base, fun there => ?_⟩
  by_cases hThere : there = here
  · rw [kind?, kind?, hThere, h.old, h.new]
    rfl
  · rw [kind?, kind?, h.kept there hThere]

/-- What is replaced twice is replaced by what came last. -/
theorem trans (hab : a.Rewritten here before middle b) (hbc : b.Rewritten here middle after c) :
    a.Rewritten here before after c :=
  ⟨hbc.base.trans hab.base, hab.old, hbc.new, fun there h => (hbc.kept there h).trans (hab.kept there h)⟩

/-- Replacing the same text by the same text gives the same store. -/
theorem same (hb : a.Rewritten here before after b) (hc : a.Rewritten here before after c) : b.Same c := by
  refine ⟨hc.base.trans hb.base.symm, fun there => ?_⟩
  by_cases hThere : there = here
  · rw [hThere, hb.new, hc.new]
  · rw [hb.kept there hThere, hc.kept there hThere]

end Rewritten

end

end Store

namespace IconSource

open Store

variable {a b store : Store} {root icon markup : Text}

/-- A fetch succeeds exactly if the name is a valid one whose file can be read. -/
theorem fetch_eq_ok :
    fetch store root icon = .ok markup ↔ ∃ path, path? root icon = some path ∧ store.readText path = .ok markup := by
  rw [fetch]
  cases hPath : path? root icon with
  | none => simp
  | some path =>
      cases hRead : store.readText path with
      | ok found => simp [hRead]
      | error e => cases e <;> simp [hRead]

/-- Where the files of an icon is the same, so is its markup. -/
theorem fetch_congr (h : a.SameKinds b)
    (hNode : ∀ path ∈ path? root icon, ∀ here, a.locate path = .ok here → b.node? here = a.node? here) :
    fetch b root icon = fetch a root icon := by
  rw [fetch, fetch]
  cases hPath : path? root icon with
  | none => rfl
  | some path =>
      simp only
      rw [h.readText (hNode path (Option.mem_def.mpr hPath))]

end IconSource

end IconRegistry
