import IconRegistry.Component.CallTree
import IconRegistry.Proofs.Markup.Every
import IconRegistry.Proofs.Markup.Mapping
import IconRegistry.Proofs.Path.Pieces
import IconRegistry.Proofs.Script.Cutting
import IconRegistry.Proofs.Text.Splitting
import IconRegistry.Proofs.Text.Trim

/-! Element trees read back from the calls they are written as. Strings are told from everything else by their first
character and end where their token ends, so nothing in them is taken for the punctuation of a call. -/
namespace IconRegistry.Markup

mutual

/-- A node whose elements close themselves just where they have no children. -/
def Node.shortest : Node → Node
  | .text content => .text content
  | .element tag attributes children _ => .element tag attributes (Node.shortestAll children) children.isEmpty

def Node.shortestAll : List Node → List Node
  | [] => []
  | node :: rest => node.shortest :: Node.shortestAll rest

end

def Element.shortest (e : Element) : Element :=
  ⟨e.tag, e.attributes, Node.shortestAll e.children, e.children.isEmpty⟩

end IconRegistry.Markup

namespace IconRegistry.Component

open Markup
open Script (IsIdentifier)

/-- The text that the string literal at the front denotes, and what stands behind the literal. -/
def literal? (s : Text) : Option (Text × Text) :=
  match Script.scanToken s with
  | (.string value, length) => some (value, s.drop length)
  | _ => none

/-- The key of a property, or an ellipsis and the identifier that is spread, and what stands behind it. -/
def propertyWord? (s : Text) : Option (Text × Text) :=
  match s with
  | '"' :: _ => literal? s
  | _ =>
    let inWord := fun c => c != ':' && c != ' '
    some (s.takeWhile inWord, s.dropWhile inWord)

/-- The properties of an object literal behind its opening brace, and the identifier spread behind them. -/
def propertiesWithin : (fuel : Nat) → Text → Option ((Attributes × Option Text) × Text)
  | 0, _ => none
  | fuel + 1, s => do
    let (word, s) ← propertyWord? s
    match Text.dropFront? ": ".toList s with
    | some s =>
      let (value, s) ← literal? s
      match Text.dropFront? ", ".toList s with
      | some s =>
        let ((attributes, spread?), s) ← propertiesWithin fuel s
        return (((word, value) :: attributes, spread?), s)
      | none => return (([(word, value)], none), ← Text.dropFront? " \x7d".toList s)
    | none =>
      let ident ← Text.dropFront? "...".toList word
      return (([], some ident), ← Text.dropFront? " \x7d".toList s)

/-- An object literal of attributes. Every property takes at least one character. -/
def object? (s : Text) : Option ((Attributes × Option Text) × Text) :=
  match Text.dropFront? "\x7b ".toList s with
  | some inside => propertiesWithin inside.length inside
  | none => (Text.dropFront? "\x7b\x7d".toList s).map fun rest => (([], none), rest)

/-- The call at the front of a text, given a reader for its children up to the closing bracket. -/
def call? (readChildren : Text → Option (List Node × Text)) (s : Text) : Option (CallTree × Text) := do
  let (_, s) ← Text.splitOnce? '(' s
  let (tag, s) ← literal? s
  let ((attributes, spread?), s) ← object? (← Text.dropFront? ", ".toList s)
  match Text.dropFront? [')'] s with
  | some rest => return (⟨⟨tag, attributes, [], true⟩, spread?⟩, rest)
  | none =>
    let (children, s) ← readChildren (← Text.dropFront? ", [".toList s)
    return (⟨⟨tag, attributes, children, false⟩, spread?⟩, ← Text.dropFront? [')'] s)

/-- The node at the front of a text: a string literal or a call. -/
def node? (readChildren : Text → Option (List Node × Text)) (s : Text) : Option (Node × Text) :=
  match s with
  | '"' :: _ => (literal? s).map fun (content, rest) => (.text content, rest)
  | _ => (call? readChildren s).map fun (tree, rest) => (tree.root.toNode, rest)

/-- Sibling nodes and the bracket behind them, with at most `fuel` nodes on any path of following and nested ones. -/
def nodesWithin? : (fuel : Nat) → Text → Option (List Node × Text)
  | 0, _ => none
  | fuel + 1, s => do
    let (node, s) ← node? (nodesWithin? fuel) s
    match Text.dropFront? ", ".toList s with
    | some s =>
      let (others, s) ← nodesWithin? fuel s
      return (node :: others, s)
    | none => return ([node], ← Text.dropFront? [']'] s)

/-- The call tree that a text was written for. Every node takes at least one character. -/
def CallTree.read? (s : Text) : Option CallTree :=
  (call? (nodesWithin? s.length) s).map (·.1)


/-- A string literal is read as its text. -/
theorem literal?_stringLiteral (s rest : Text) : literal? (stringLiteral s ++ rest) = some (s, rest) := by
  rw [literal?, Script.scanToken_stringLiteral]
  simp

/-- A word that is no literal ends at the first colon or space. -/
theorem propertyWord?_plain {word : Text} (hPlain : ∀ c ∈ word, c ≠ ':' ∧ c ≠ ' ' ∧ c ≠ '"') {c : Char}
    (hEnd : c = ':' ∨ c = ' ') (rest : Text) : propertyWord? (word ++ c :: rest) = some (word, c :: rest) := by
  have hWord : ∀ d ∈ word, (d != ':' && d != ' ') = true := by
    intro d hd
    simp [hPlain d hd]
  have hStop : (c != ':' && c != ' ') = false := by
    rcases hEnd with rfl | rfl <;> rfl
  rw [propertyWord?]
  · rw [List.takeWhile_append_of_pos hWord, List.dropWhile_append_of_pos hWord]
    simp only [List.takeWhile_cons, List.dropWhile_cons, hStop]
    simp
  · intro others hOthers
    cases word with
    | nil =>
        rcases hEnd with rfl | rfl <;> cases hOthers
    | cons d word =>
        obtain ⟨rfl, -⟩ := List.cons_eq_cons.mp hOthers
        exact (hPlain '"' (by simp)).2.2 rfl

/-- Keys are free of blanks, equals signs, double quotes and slashes. -/
def KeysAreWords (_ : Text) (attributes : Attributes) : Prop :=
  ∀ pair ∈ attributes, ∀ c ∈ pair.1, isKeyChar c = true

instance (tag : Text) (attributes : Attributes) : Decidable (KeysAreWords tag attributes) :=
  inferInstanceAs (Decidable (∀ pair ∈ attributes, ∀ c ∈ pair.1, isKeyChar c = true))

/-- A key is told from the rest of its property, however it is quoted. -/
theorem propertyWord?_objectKey {key : Text} (h : ∀ c ∈ key, isKeyChar c = true) (rest : Text) :
    propertyWord? (objectKey key ++ ':' :: rest) = some (key, ':' :: rest) := by
  rw [objectKey]
  split
  · exact literal?_stringLiteral key _
  · rename_i hPlain
    refine propertyWord?_plain (fun c hc => ?_) (.inl rfl) rest
    have hColon : c ≠ ':' := by
      rintro rfl
      exact hPlain (List.any_eq_true.mpr ⟨':', hc, rfl⟩)
    have hOthers : c ≠ ' ' ∧ c ≠ '"' := by
      constructor
      all_goals
        rintro rfl
        exact absurd (h _ hc) (by decide)
    exact ⟨hColon, hOthers⟩

/-- The identifier that is spread stands behind an ellipsis. -/
theorem propertyWord?_spread {ident : Text} (h : IsIdentifier ident) (rest : Text) :
    propertyWord? ("...".toList ++ ident ++ ' ' :: rest) = some ("...".toList ++ ident, ' ' :: rest) := by
  refine propertyWord?_plain (fun c hc => ?_) (.inr rfl) rest
  have hDots : ∀ d ∈ "...".toList, d ≠ ':' ∧ d ≠ ' ' ∧ d ≠ '"' := by decide
  rcases List.mem_append.mp hc with hc | hc
  · exact hDots c hc
  · refine ⟨?_, ?_, ?_⟩
    all_goals
      rintro rfl
      exact h.not_mem (by decide) hc

/-- The member that spreads an identifier, if there is one to spread. -/
def spreadMember (spread? : Option Text) : List Text :=
  (spread?.map ("...".toList ++ ·)).toList

/-- A property is read whatever stands behind it, be it a comma or the closing brace. -/
theorem propertiesWithin_property {key : Text} (hKey : ∀ c ∈ key, isKeyChar c = true) (value behind : Text)
    (fuel : Nat) :
    propertiesWithin (fuel + 1) (objectKey key ++ ": ".toList ++ stringLiteral value ++ behind) =
      match Text.dropFront? ", ".toList behind with
      | some more => (propertiesWithin fuel more).map fun ((attributes, spread?), s) =>
          (((key, value) :: attributes, spread?), s)
      | none => (Text.dropFront? " \x7d".toList behind).map fun s => (([(key, value)], none), s) := by
  have hText : objectKey key ++ ": ".toList ++ stringLiteral value ++ behind =
      objectKey key ++ ':' :: ([' '] ++ (stringLiteral value ++ behind)) := by simp
  have hColon : Text.dropFront? ": ".toList (':' :: ([' '] ++ (stringLiteral value ++ behind))) =
      some (stringLiteral value ++ behind) := Text.dropFront?_append ": ".toList _
  rw [hText, propertiesWithin, propertyWord?_objectKey hKey]
  simp only [Option.bind_eq_bind, Option.bind_some, hColon, literal?_stringLiteral]
  cases Text.dropFront? ", ".toList behind with
  | some more => exact (Option.map_eq_bind ..).symm
  | none => exact (Option.map_eq_bind ..).symm

/-- A spread ends the properties of an object. -/
theorem propertiesWithin_spread {ident : Text} (h : IsIdentifier ident) (rest : Text) (fuel : Nat) :
    propertiesWithin (fuel + 1) ("...".toList ++ ident ++ (" \x7d".toList ++ rest)) = some (([], some ident), rest) := by
  have hText : "...".toList ++ ident ++ (" \x7d".toList ++ rest) = "...".toList ++ ident ++ ' ' :: '\x7d' :: rest := by
    simp
  have hNoColon : Text.dropFront? ": ".toList (' ' :: '\x7d' :: rest) = none := by simp [Text.dropFront?]
  have hEnd : Text.dropFront? " \x7d".toList (' ' :: '\x7d' :: rest) = some rest :=
    Text.dropFront?_append " \x7d".toList rest
  rw [hText, propertiesWithin, propertyWord?_spread h]
  simp only [Option.bind_eq_bind, Option.bind_some, hNoColon, Text.dropFront?_append, hEnd]
  rfl

/-- Properties and what is spread behind them are read up to the closing brace. -/
theorem propertiesWithin_members {attributes : Attributes} {spread? : Option Text}
    (hKeys : ∀ pair ∈ attributes, ∀ c ∈ pair.1, isKeyChar c = true) (hSpread : ∀ ident ∈ spread?, IsIdentifier ident)
    (hSome : attributeProperties attributes ++ spreadMember spread? ≠ []) (rest : Text) {fuel : Nat}
    (hFuel : (Text.join ", ".toList (attributeProperties attributes ++ spreadMember spread?)).length ≤ fuel) :
    propertiesWithin fuel (Text.join ", ".toList (attributeProperties attributes ++ spreadMember spread?) ++
      (" \x7d".toList ++ rest)) = some ((attributes.mapValues decodeEntities, spread?), rest) := by
  induction attributes generalizing fuel with
  | nil =>
      cases spread? with
      | none => exact absurd rfl hSome
      | some ident =>
          have hMember : Text.join ", ".toList (attributeProperties [] ++ spreadMember (some ident)) =
              "...".toList ++ ident := rfl
          rw [hMember] at hFuel ⊢
          obtain ⟨fuel, rfl⟩ : ∃ n, fuel = n + 1 := ⟨fuel - 1, by simp at hFuel; omega⟩
          exact propertiesWithin_spread (hSpread ident rfl) rest fuel
  | cons pair others ih =>
      obtain ⟨key, value⟩ := pair
      obtain ⟨hKey, hOthers⟩ := List.forall_mem_cons.mp hKeys
      have hProperty : attributeProperties ((key, value) :: others) ++ spreadMember spread? =
          (objectKey key ++ ": ".toList ++ stringLiteral (decodeEntities value)) ::
            (attributeProperties others ++ spreadMember spread?) := rfl
      rw [hProperty] at hFuel ⊢
      by_cases hLast : attributeProperties others ++ spreadMember spread? = []
      · obtain ⟨hNone, hNoSpread⟩ := List.append_eq_nil_iff.mp hLast
        obtain rfl : others = [] := List.map_eq_nil_iff.mp hNone
        obtain rfl : spread? = none := by
          cases spread? with
          | none => rfl
          | some ident => cases hNoSpread
        have hNoComma : Text.dropFront? ", ".toList (" \x7d".toList ++ rest) = none := by simp [Text.dropFront?]
        rw [hLast, Text.join] at hFuel ⊢
        obtain ⟨fuel, rfl⟩ : ∃ n, fuel = n + 1 := ⟨fuel - 1, by simp at hFuel; omega⟩
        rw [propertiesWithin_property hKey]
        simp only [hNoComma, Text.dropFront?_append]
        rfl
      · rw [Text.join_cons _ _ hLast] at hFuel ⊢
        simp only [List.length_append] at hFuel
        have hComma : ", ".toList.length = 2 := rfl
        obtain ⟨fuel, rfl⟩ : ∃ n, fuel = n + 1 := ⟨fuel - 1, by omega⟩
        simp only [List.append_assoc] at ih ⊢
        have hStep := propertiesWithin_property hKey (decodeEntities value) (", ".toList ++ (Text.join ", ".toList
          (attributeProperties others ++ spreadMember spread?) ++ (" \x7d".toList ++ rest))) fuel
        simp only [List.append_assoc] at hStep
        rw [hStep]
        simp only [Text.dropFront?_append]
        rw [ih hOthers hLast (by omega)]
        rfl

/-- An object literal is read as its attributes and its spread. -/
theorem object?_objectLiteral {attributes : Attributes} {spread? : Option Text}
    (hKeys : ∀ pair ∈ attributes, ∀ c ∈ pair.1, isKeyChar c = true) (hSpread : ∀ ident ∈ spread?, IsIdentifier ident)
    (rest : Text) :
    object? (objectLiteral (attributeProperties attributes ++ spreadMember spread?) ++ rest) =
      some ((attributes.mapValues decodeEntities, spread?), rest) := by
  rw [objectLiteral]
  by_cases hNone : attributeProperties attributes ++ spreadMember spread? = []
  · obtain ⟨hNoAttributes, hNoSpread⟩ := List.append_eq_nil_iff.mp hNone
    obtain rfl : attributes = [] := List.map_eq_nil_iff.mp hNoAttributes
    obtain rfl : spread? = none := by
      cases spread? with
      | none => rfl
      | some ident => cases hNoSpread
    rfl
  · rw [if_neg (by simpa using hNone)]
    simp only [List.append_assoc, object?, Text.dropFront?_append]
    refine propertiesWithin_members hKeys hSpread hNone rest ?_
    simp

/-- A call is read if its children are read up to the bracket behind them. -/
theorem call?_constructorCall {readChildren : Text → Option (List Node × Text)} {ctor : Text}
    {attributes : Attributes} {spread? : Option Text} {children : List Text} {nodes : List Node} (tag : Text)
    (hCtor : IsIdentifier ctor) (hKeys : ∀ pair ∈ attributes, ∀ c ∈ pair.1, isKeyChar c = true)
    (hSpread : ∀ ident ∈ spread?, IsIdentifier ident) (hNone : children = [] → nodes = [])
    (hChildren : children ≠ [] → ∀ rest,
      readChildren (Text.join ", ".toList children ++ ']' :: rest) = some (nodes, rest)) (rest : Text) :
    call? readChildren (constructorCall ctor tag (attributeProperties attributes ++ spreadMember spread?) children ++
      rest) = some (⟨⟨tag, attributes.mapValues decodeEntities, nodes, children.isEmpty⟩, spread?⟩, rest) := by
  have hCall : ∀ s, Text.splitOnce? '(' (ctor ++ '(' :: s) = some (ctor, s) :=
    Text.splitOnce?_append (hCtor.not_mem (by decide))
  cases children with
  | nil =>
      have hText : constructorCall ctor tag (attributeProperties attributes ++ spreadMember spread?) [] ++ rest =
          ctor ++ '(' :: (stringLiteral tag ++ (", ".toList ++
            (objectLiteral (attributeProperties attributes ++ spreadMember spread?) ++ ([')'] ++ rest)))) := by
        simp [constructorCall]
      rw [hText, call?]
      simp only [Option.bind_eq_bind, Option.bind_some, hCall, literal?_stringLiteral, Text.dropFront?_append,
        object?_objectLiteral hKeys hSpread]
      rw [hNone rfl]
      rfl
  | cons child others =>
      have hText : constructorCall ctor tag (attributeProperties attributes ++ spreadMember spread?)
          (child :: others) ++ rest = ctor ++ '(' :: (stringLiteral tag ++ (", ".toList ++
            (objectLiteral (attributeProperties attributes ++ spreadMember spread?) ++ (", [".toList ++
              (Text.join ", ".toList (child :: others) ++ ']' :: ([')'] ++ rest)))))) := by
        simp [constructorCall]
      have hNoEnd : ∀ s, Text.dropFront? [')'] (", [".toList ++ s) = none := by
        intro s
        simp [Text.dropFront?]
      rw [hText, call?]
      simp only [Option.bind_eq_bind, Option.bind_some, hCall, literal?_stringLiteral, Text.dropFront?_append,
        object?_objectLiteral hKeys hSpread, hNoEnd, hChildren (List.cons_ne_nil _ _)]
      rfl

theorem callNode_element (ctor tag : Text) (attributes : Attributes) (children : List Node) (selfClosing : Bool) :
    callNode ctor (.element tag attributes children selfClosing) =
      constructorCall ctor tag (attributeProperties attributes ++ spreadMember none) (callNodes ctor children) := by
  rw [callNode, spreadMember, Option.map_none, Option.toList_none, List.append_nil]

theorem callNodes_eq_nil {ctor : Text} {nodes : List Node} (h : callNodes ctor nodes = []) : nodes = [] := by
  cases nodes with
  | nil => rfl
  | cons node others => cases h

/-- The children of a call are part of it. -/
theorem length_join_lt_constructorCall (ctor tag : Text) (properties : List Text) {children : List Text}
    (h : children ≠ []) :
    (Text.join ", ".toList children).length < (constructorCall ctor tag properties children).length := by
  rw [constructorCall, if_neg (by simpa using h)]
  simp only [List.length_append, List.length_singleton]
  omega

/-- A call is no string literal. -/
theorem node?_call {readChildren : Text → Option (List Node × Text)} {ctor : Text} (h : IsIdentifier ctor)
    (s : Text) : node? readChildren (ctor ++ s) =
      (call? readChildren (ctor ++ s)).map fun (tree, rest) => (tree.root.toNode, rest) := by
  rw [node?]
  intro others hOthers
  cases ctor with
  | nil => cases h
  | cons c ctor =>
      obtain ⟨rfl, -⟩ := List.cons_eq_cons.mp hOthers
      exact h.not_mem (c := '"') (by decide) (by simp)

theorem isEmpty_callNodes (ctor : Text) (nodes : List Node) :
    (callNodes ctor nodes).isEmpty = (Node.mapAll decodeEntities decodeEntities nodes).isEmpty := by
  cases nodes <;> rfl

theorem callNode_ne_nil (ctor : Text) (node : Node) : callNode ctor node ≠ [] := by
  cases node <;> simp [callNode, stringLiteral, constructorCall]

mutual

/-- A node is read back as it is meant. -/
theorem node?_callNode {ctor : Text} (hCtor : IsIdentifier ctor) {node : Node} (hKeys : node.Every KeysAreWords)
    {fuel : Nat} (hFuel : (callNode ctor node).length ≤ fuel + 1) (rest : Text) :
    node? (nodesWithin? fuel) (callNode ctor node ++ rest) =
      some ((node.map decodeEntities decodeEntities).shortest, rest) := by
  cases node with
  | text content =>
      have hLiteral := literal?_stringLiteral (decodeEntities content) rest
      have hNode : node? (nodesWithin? fuel) (stringLiteral (decodeEntities content) ++ rest) =
          (literal? (stringLiteral (decodeEntities content) ++ rest)).map fun (content, s) => (.text content, s) := rfl
      rw [callNode, hNode, hLiteral]
      rfl
  | element tag attributes children selfClosing =>
      rw [callNode_element] at hFuel ⊢
      have hChildren : callNodes ctor children ≠ [] → ∀ s,
          nodesWithin? fuel (Text.join ", ".toList (callNodes ctor children) ++ ']' :: s) =
            some (Node.shortestAll (Node.mapAll decodeEntities decodeEntities children), s) := by
        intro hSome s
        have hShorter := length_join_lt_constructorCall ctor tag
          (attributeProperties attributes ++ spreadMember none) hSome
        exact nodesWithin?_callNodes hCtor hKeys.2 hSome (by omega) s
      have hNone : callNodes ctor children = [] →
          Node.shortestAll (Node.mapAll decodeEntities decodeEntities children) = [] := by
        intro hNone
        rw [callNodes_eq_nil hNone]
        rfl
      have hText : constructorCall ctor tag (attributeProperties attributes ++ spreadMember none)
          (callNodes ctor children) ++ rest = ctor ++ (constructorCall [] tag
            (attributeProperties attributes ++ spreadMember none) (callNodes ctor children) ++ rest) := by
        simp [constructorCall]
      rw [hText, node?_call hCtor, ← hText,
        call?_constructorCall _ hCtor hKeys.1 (by simp) hNone hChildren,
        isEmpty_callNodes]
      rfl

/-- Nodes in brackets are read back as they are meant. -/
theorem nodesWithin?_callNodes {ctor : Text} (hCtor : IsIdentifier ctor) {nodes : List Node}
    (hKeys : Node.EveryIn KeysAreWords nodes) (hSome : callNodes ctor nodes ≠ []) {fuel : Nat}
    (hFuel : (Text.join ", ".toList (callNodes ctor nodes)).length ≤ fuel) (rest : Text) :
    nodesWithin? fuel (Text.join ", ".toList (callNodes ctor nodes) ++ ']' :: rest) =
      some (Node.shortestAll (Node.mapAll decodeEntities decodeEntities nodes), rest) := by
  cases nodes with
  | nil => exact absurd rfl hSome
  | cons node others =>
      have hLonger := List.length_pos_iff.mpr (callNode_ne_nil ctor node)
      rw [callNodes] at hFuel ⊢
      by_cases hLast : callNodes ctor others = []
      · have hNoComma : Text.dropFront? ", ".toList (']' :: rest) = none := by simp [Text.dropFront?]
        have hEnd : Text.dropFront? [']'] (']' :: rest) = some rest := Text.dropFront?_append [']'] rest
        rw [hLast, Text.join] at hFuel ⊢
        obtain ⟨fuel, rfl⟩ : ∃ n, fuel = n + 1 := ⟨fuel - 1, by omega⟩
        rw [nodesWithin?, node?_callNode hCtor hKeys.1 hFuel]
        simp only [Option.bind_eq_bind, Option.bind_some, hNoComma, hEnd]
        rw [callNodes_eq_nil hLast]
        rfl
      · rw [Text.join_cons _ _ hLast] at hFuel ⊢
        simp only [List.length_append] at hFuel
        obtain ⟨fuel, rfl⟩ : ∃ n, fuel = n + 1 := ⟨fuel - 1, by omega⟩
        rw [List.append_assoc, List.append_assoc, nodesWithin?, node?_callNode hCtor hKeys.1 (by omega)]
        simp only [Option.bind_eq_bind, Option.bind_some, Text.dropFront?_append]
        rw [nodesWithin?_callNodes hCtor hKeys.2 hLast (by omega)]
        rfl

end

/-- What is written for a tree of calls is read back as the tree is meant. -/
theorem CallTree.read?_emit {ctor : Text} (hCtor : IsIdentifier ctor) {tree : CallTree}
    (hKeys : tree.root.Every KeysAreWords) (hSpread : ∀ ident ∈ tree.spread?, IsIdentifier ident) :
    CallTree.read? (tree.emit ctor) = some ⟨tree.root.decoded.shortest, tree.spread?⟩ := by
  have hChildren : callNodes ctor tree.root.children ≠ [] → ∀ s,
      nodesWithin? (tree.emit ctor).length (Text.join ", ".toList (callNodes ctor tree.root.children) ++ ']' :: s) =
        some (Node.shortestAll (Node.mapAll decodeEntities decodeEntities tree.root.children), s) := by
    intro hSome s
    exact nodesWithin?_callNodes hCtor hKeys.2 hSome (Nat.le_of_lt (length_join_lt_constructorCall _ _ _ hSome)) s
  have hNone : callNodes ctor tree.root.children = [] →
      Node.shortestAll (Node.mapAll decodeEntities decodeEntities tree.root.children) = [] := by
    intro hNone
    rw [callNodes_eq_nil hNone]
    rfl
  have hCall := call?_constructorCall tree.root.tag hCtor hKeys.1 hSpread hNone hChildren []
  rw [List.append_nil, isEmpty_callNodes] at hCall
  rw [CallTree.read?]
  exact congrArg (Option.map (·.1)) hCall

/-- Calls lose nothing of a tree: it is read back from them as it is meant, so trees that are written as the same calls
are the same but for how their entities are spelled and whether childless elements have a body. -/
theorem CallTree.emit_loses_nothing {ctor : Text} (hCtor : IsIdentifier ctor) {tree : CallTree}
    (hKeys : tree.root.Every KeysAreWords) (hSpread : ∀ ident ∈ tree.spread?, IsIdentifier ident) :
    CallTree.read? (tree.emit ctor) = some ⟨tree.root.decoded.shortest, tree.spread?⟩ ∧
      ∀ {other : CallTree} {ctor' : Text}, IsIdentifier ctor' → other.root.Every KeysAreWords →
        (∀ ident ∈ other.spread?, IsIdentifier ident) → other.emit ctor' = tree.emit ctor →
        other.root.decoded.shortest = tree.root.decoded.shortest ∧ other.spread? = tree.spread? := by
  have hTree := CallTree.read?_emit hCtor hKeys hSpread
  refine ⟨hTree, ?_⟩
  intro other ctor' hCtor' hKeys' hSpread' hSame
  have hOther := CallTree.read?_emit hCtor' hKeys' hSpread'
  rw [hSame, hTree] at hOther
  injection hOther with hEqual
  injection hEqual with hRoot hIdent
  exact ⟨hRoot.symm, hIdent.symm⟩

/-- Punctuation of calls in texts, values, keys and tags, and an entity next to the character that it stands for. -/
theorem CallTree.emit_loses_no_punctuation :
    CallTree.read? (CallTree.emit ⟨⟨"a\", \x7b".toList, [("x-y".toList, "1\\, ".toList), ("...z\x7d".toList, "&quot;\n".toList)],
        [.text "\")]&amp;".toList, .element "g".toList [] [.element "p".toList [] [] false] false], false⟩,
        some "props".toList⟩ "h".toList) =
      some ⟨⟨"a\", \x7b".toList, [("x-y".toList, "1\\, ".toList), ("...z\x7d".toList, "\"\n".toList)],
        [.text "\")]&".toList, .element "g".toList [] [.element "p".toList [] [] true] false], false⟩,
        some "props".toList⟩ := by
  have hCtor : IsIdentifier "h".toList := ⟨by decide, by decide⟩
  have hProps : IsIdentifier "props".toList := ⟨by decide, by decide⟩
  have hKeys : KeysAreWords "a\", \x7b".toList [("x-y".toList, "1\\, ".toList), ("...z\x7d".toList, "&quot;\n".toList)] := by
    decide
  have hNone : ∀ tag, KeysAreWords tag [] := fun _ => List.forall_mem_nil _
  refine (CallTree.emit_loses_nothing hCtor ?_ ?_).1
  · exact ⟨hKeys, trivial, ⟨hNone _, ⟨hNone _, trivial⟩, trivial⟩, trivial⟩
  · rintro _ ⟨rfl⟩
    exact hProps

end IconRegistry.Component
