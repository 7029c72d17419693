import IconRegistry.Proofs.Markup.Tiling

/-! The normal form of what is read of markup. However malformed a text is, its tree has names for tags, words for keys,
values that can stand in double quotes, and texts that are neither blank at their ends nor next to each other. -/
namespace IconRegistry.Markup

mutual

/-- A node in normal form, and with it all that is below. -/
def Node.Normal : Node → Prop
  | .text content => IsContent content
  | .element tag attributes children selfClosing =>
    IsTagName tag ∧ (attributes.Keyed ∧ attributes.Unquoted) ∧ (selfClosing = true → children = []) ∧
      Node.NormalIn children

/-- Sibling nodes in normal form, of which no two neighbours are texts. -/
def Node.NormalIn : List Node → Prop
  | [] => True
  | node :: rest =>
    node.Normal ∧ (∀ content other, node = .text content → rest.head? ≠ some (.text other)) ∧ Node.NormalIn rest

end

/-- An element is in normal form if what is inside of it is, and nothing is where the element has no body. -/
theorem Extent.normal {tag : OpenTag} {inside? : Option Text} {span after : Text} {children : List Node}
    (h : Extent tag inside? span after) (hBodiless : inside? = none → children = []) (hInside : Node.NormalIn children) :
    Node.Normal (.element tag.name tag.pairs children inside?.isNone) := by
  have hRead : OpenTag.read? (tag.source ++ tag.rest) = some tag := by
    cases h with
    | bodiless hRead | body hRead => exact hRead
  exact ⟨(OpenTag.read?_eq_some hRead).2, ⟨keyed_attributesIn _, unquoted_attributesIn _⟩,
    fun hNone => hBodiless (Option.isNone_iff_eq_none.mp hNone), hInside⟩

/-- Nodes that tile a text are normal. -/
theorem Tiles.normalIn {nodes : List Node} {s : Text} (h : Tiles nodes s) : Node.NormalIn nodes := by
  induction h with
  | nil => trivial
  | text _ hContent hApart _ ih => exact ⟨hContent, fun _ other _ => hApart other, ih⟩
  | bodiless _ hExtent _ ih => exact ⟨hExtent.normal (fun _ => rfl) trivial, fun _ _ hText => (nomatch hText), ih⟩
  | body _ hExtent _ _ ihInside ih =>
      exact ⟨hExtent.normal (fun hNone => (nomatch hNone)) ihInside, fun _ _ hText => (nomatch hText), ih⟩

/-- Every tree that is read is in normal form, whatever the text. -/
theorem normal_of_readRoot {s : Text} {root : Element} (h : readRoot s = .ok root) : root.toNode.Normal := by
  obtain ⟨found, hFound, h⟩ := bind_eq_ok.mp h
  split at h
  · cases h
    obtain ⟨tag, inside?, span, children, -, hExtent, hInside, rfl⟩ := exists_extent_of_readElement? hFound
    cases inside? with
    | none =>
        cases hInside
        exact hExtent.normal (fun _ => rfl) trivial
    | some inside => exact hExtent.normal (fun hNone => (nomatch hNone)) (tiles_of_readNodes hInside).normalIn
  · cases h

/-- Keys with angles in them, values next to each other, and a tag that nothing closes. -/
theorem normal_of_readRoot_malformed :
    let root : Element := ⟨"svg".toList, [("x>y".toList, "z".toList), ("<b".toList, "1/".toList)],
      [.element "p".toList [] [] true, .text "t &lt;".toList, .element "svg".toList [] [] true], false⟩
    readRoot " <svg a\"x>y=\"z\"\" <b=\"1/\"><p q> t &lt; <svg/ ></svg >junk".toList = .ok root ∧
      root.toNode.Normal := by
  intro root
  have hRead : readRoot " <svg a\"x>y=\"z\"\" <b=\"1/\"><p q> t &lt; <svg/ ></svg >junk".toList = .ok root := by rfl
  exact ⟨hRead, normal_of_readRoot hRead⟩

end IconRegistry.Markup
