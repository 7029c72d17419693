import IconRegistry.Markup.Reader
import IconRegistry.Proofs.Result

/-! What holds of every element of a tree that was read: it is enough that it holds of what opening tags say. -/
namespace IconRegistry.Markup

mutual

/-- All elements of a tree have a property of tags and attributes. -/
def Node.Every (holds : Text → Attributes → Prop) : Node → Prop
  | .text _ => True
  | .element tag attributes children _ => holds tag attributes ∧ Node.EveryIn holds children

/-- All elements of several trees have a property of tags and attributes. -/
def Node.EveryIn (holds : Text → Attributes → Prop) : List Node → Prop
  | [] => True
  | node :: rest => node.Every holds ∧ Node.EveryIn holds rest

end

/-- All elements below and at a root have a property of tags and attributes. -/
def Element.Every (holds : Text → Attributes → Prop) (e : Element) : Prop :=
  e.toNode.Every holds

mutual

/-- Two things that hold of every element hold of it together. -/
theorem Node.Every.and {first second : Text → Attributes → Prop} {node : Node} (h : node.Every first)
    (h' : node.Every second) : node.Every fun tag attributes => first tag attributes ∧ second tag attributes := by
  cases node with
  | text content => trivial
  | element tag attributes children selfClosing => exact ⟨⟨h.1, h'.1⟩, Node.EveryIn.and h.2 h'.2⟩

theorem Node.EveryIn.and {first second : Text → Attributes → Prop} {nodes : List Node}
    (h : Node.EveryIn first nodes) (h' : Node.EveryIn second nodes) :
    Node.EveryIn (fun tag attributes => first tag attributes ∧ second tag attributes) nodes := by
  cases nodes with
  | nil => trivial
  | cons node rest => exact ⟨Node.Every.and h.1 h'.1, Node.EveryIn.and h.2 h'.2⟩

end

/-- The property holds of what every opening tag says. -/
def HoldsOfTags (holds : Text → Attributes → Prop) : Prop :=
  ∀ {s tag}, OpenTag.read? s = some tag → holds tag.name (attributesIn (withoutSlash tag.attributes))

section

variable {holds : Text → Attributes → Prop}

/-- What holds of all tags that can be read, and inside of an element, holds of every element in it. -/
theorem every_of_readElement? (hTags : HoldsOfTags holds) {readInside : Text → Except ReadError (List Node)}
    (hInside : ∀ {s nodes}, readInside s = .ok nodes → Node.EveryIn holds nodes) {s after : Text} {e : Element}
    (h : readElement? readInside s = .ok (some (e, after))) : e.Every holds := by
  rw [readElement?] at h
  split at h
  · cases h
  · rename_i tag hTag
    dsimp only at h
    split at h
    · cases h
      exact ⟨hTags hTag, trivial⟩
    · rename_i inside rest hBody
      obtain ⟨children, hChildren, h⟩ := bind_eq_ok.mp h
      cases h
      exact ⟨hTags hTag, hInside hChildren⟩

/-- What holds of all tags that can be read holds of every element that is read. -/
theorem everyIn_of_readNodesWithin (hTags : HoldsOfTags holds) {fuel : Nat} {s : Text} {nodes : List Node}
    (h : readNodesWithin fuel s = .ok nodes) : Node.EveryIn holds nodes := by
  induction fuel generalizing s nodes with
  | zero =>
      cases h
      trivial
  | succ fuel ih =>
      rw [readNodesWithin] at h
      split at h
      · cases h
        trivial
      · split at h
        · obtain ⟨found, hFound, h⟩ := bind_eq_ok.mp h
          split at h
          · cases h
          · rename_i e after
            obtain ⟨others, hOthers, h⟩ := bind_eq_ok.mp h
            cases h
            exact ⟨every_of_readElement? hTags ih hFound, ih hOthers⟩
        · obtain ⟨others, hOthers, h⟩ := bind_eq_ok.mp h
          cases h
          exact ⟨trivial, ih hOthers⟩

/-- What holds of all opening tags holds of all elements that are read. -/
theorem every_of_readRoot (hTags : HoldsOfTags holds) {s : Text} {root : Element} (h : readRoot s = .ok root) :
    root.Every holds := by
  obtain ⟨found, hFound, h⟩ := bind_eq_ok.mp h
  split at h
  · cases h
    exact every_of_readElement? hTags (everyIn_of_readNodesWithin hTags) hFound
  · cases h

end

/-- Values have no double quotes in them. -/
def Attributes.Unquoted (attributes : Attributes) : Prop :=
  ∀ pair ∈ attributes, '"' ∉ pair.2

/-- The value being scanned has no double quotes in it. -/
def AttributeScan.Unquoted : AttributeScan → Prop
  | .value _ v => '"' ∉ v
  | _ => True

theorem AttributeScan.Unquoted.ite {p : Prop} [Decidable p] {first second : AttributeScan} (h : first.Unquoted)
    (h' : second.Unquoted) : (if p then first else second).Unquoted := by
  split
  · exact h
  · exact h'

/-- A scan that has taken no double quote takes none. -/
theorem unquoted_attributesFrom {scan : AttributeScan} (h : scan.Unquoted) (s : Text) :
    (attributesFrom scan s).Unquoted := by
  induction s generalizing scan with
  | nil => simp [attributesFrom, Attributes.Unquoted]
  | cons c s ih =>
      cases scan with
      | outside => exact ih (.ite trivial trivial)
      | key | afterKey =>
          exact ih (.ite trivial (.ite trivial (.ite trivial trivial)))
      | afterEquals key =>
          have hEmpty : (AttributeScan.value key []).Unquoted := List.not_mem_nil
          exact ih (.ite trivial (.ite trivial (.ite hEmpty trivial)))
      | value key v =>
          have hValue : '"' ∉ v := h
          rw [attributesFrom]
          split
          · exact List.forall_mem_cons.mpr ⟨by simpa using hValue, ih trivial⟩
          · rename_i hOther
            have hNew : c ≠ '"' := by simpa using hOther
            have hMore : '"' ∉ c :: v := List.not_mem_cons_of_ne_of_not_mem hNew.symm hValue
            exact ih hMore

/-- No value that is read holds a double quote. -/
theorem unquoted_attributesIn (s : Text) : (attributesIn s).Unquoted := by
  have hOutside : AttributeScan.outside.Unquoted := trivial
  exact unquoted_attributesFrom hOutside s

end IconRegistry.Markup
