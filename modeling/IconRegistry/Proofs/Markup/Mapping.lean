import IconRegistry.Markup.Element
import IconRegistry.Markup.Entity

/-! Changes to the attribute values and the texts of a tree that leave its tags, its keys and its form alone. -/
namespace IconRegistry.Markup

def Attributes.mapValues (value : Text → Text) (attributes : Attributes) : Attributes :=
  attributes.map fun pair => (pair.1, value pair.2)

mutual

def Node.map (value content : Text → Text) : Node → Node
  | .text t => .text (content t)
  | .element tag attributes children selfClosing =>
    .element tag (attributes.mapValues value) (Node.mapAll value content children) selfClosing

def Node.mapAll (value content : Text → Text) : List Node → List Node
  | [] => []
  | node :: rest => node.map value content :: Node.mapAll value content rest

end

def Element.map (value content : Text → Text) (e : Element) : Element :=
  ⟨e.tag, e.attributes.mapValues value, Node.mapAll value content e.children, e.selfClosing⟩

mutual

theorem Node.map_id (node : Node) : node.map id id = node := by
  cases node with
  | text content => rfl
  | element tag attributes children selfClosing =>
      have hSame : attributes.mapValues id = attributes := List.map_id _
      rw [Node.map, hSame, Node.mapAll_id children]

theorem Node.mapAll_id (nodes : List Node) : Node.mapAll id id nodes = nodes := by
  cases nodes with
  | nil => rfl
  | cons node rest => rw [Node.mapAll, Node.map_id node, Node.mapAll_id rest]

end

/-- A tree as it is meant, with entities read as the characters they stand for. -/
def Element.decoded (e : Element) : Element :=
  e.map decodeEntities decodeEntities

namespace Attributes

variable {value : Text → Text}

/-- Setting an attribute goes by keys, so that values may be changed before it or after it. -/
theorem mapValues_set (key v : Text) (attributes : Attributes) :
    (attributes.set key v).mapValues value = (attributes.mapValues value).set key (value v) := by
  induction attributes with
  | nil => rfl
  | cons pair rest ih =>
      obtain ⟨k, w⟩ := pair
      show Attributes.mapValues value (if k == key then (k, v) :: rest else (k, w) :: Attributes.set key v rest) =
        if k == key then (k, value v) :: Attributes.mapValues value rest
        else (k, value w) :: Attributes.set key (value v) (Attributes.mapValues value rest)
      rw [← ih]
      split <;> rfl

/-- Values can be mapped before attributes are merged or afterwards. -/
theorem mapValues_merge (attributes extras : Attributes) :
    (attributes.merge extras).mapValues value = (attributes.mapValues value).merge (extras.mapValues value) := by
  induction extras generalizing attributes with
  | nil => rfl
  | cons extra rest ih =>
      have hStep := ih (attributes.set extra.1 extra.2)
      rw [mapValues_set] at hStep
      exact hStep

/-- What holds of all attributes and of a further one holds of them with that one set. -/
theorem forall_set {holds : Text × Text → Prop} {attributes : Attributes} {key v : Text}
    (h : ∀ pair ∈ attributes, holds pair) (hNew : holds (key, v)) : ∀ pair ∈ attributes.set key v, holds pair := by
  induction attributes with
  | nil => exact List.forall_mem_cons.mpr ⟨hNew, List.forall_mem_nil _⟩
  | cons pair rest ih =>
      obtain ⟨hHere, hRest⟩ := List.forall_mem_cons.mp h
      rw [Attributes.set]
      split
      · rename_i hSame
        rw [beq_iff_eq.mp hSame]
        exact List.forall_mem_cons.mpr ⟨hNew, hRest⟩
      · exact List.forall_mem_cons.mpr ⟨hHere, ih hRest⟩

/-- What holds of both holds of the merged attributes. -/
theorem forall_merge {holds : Text × Text → Prop} {attributes extras : Attributes}
    (h : ∀ pair ∈ attributes, holds pair) (hExtras : ∀ pair ∈ extras, holds pair) :
    ∀ pair ∈ attributes.merge extras, holds pair := by
  induction extras generalizing attributes with
  | nil => exact h
  | cons extra rest ih =>
      obtain ⟨hHere, hRest⟩ := List.forall_mem_cons.mp hExtras
      exact ih (forall_set h hHere) hRest

end Attributes

end IconRegistry.Markup
