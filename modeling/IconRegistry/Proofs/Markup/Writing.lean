import IconRegistry.Markup.Tag
import IconRegistry.Proofs.Text.Trim
import IconRegistry.Text.Ranges

/-! Markup as people and programs write it. A tree has many written forms, which differ in what stands between nodes,
in the blanks inside of tags and in the quotation marks; a style says which of these are meant. -/
namespace IconRegistry.Markup

open Text (Blanks Trimmed)

/-- An attribute as it stands in a tag, with the blanks in front of it and around its equals sign. -/
structure WrittenAttribute where
  front : Text
  key : Text
  beforeEquals : Text
  afterEquals : Text
  quote : Char
  value : Text
  deriving DecidableEq

/-- Keys end at blanks and at the characters that tags are written with. -/
structure IsKey (key : Text) : Prop where
  nonempty : key ≠ []
  chars : ∀ c ∈ key, isKeyChar c = true
  angles : '<' ∉ key ∧ '>' ∉ key

/-- Tag names begin with a letter. -/
structure IsTagName (tag : Text) : Prop where
  letter : ∃ c rest, tag = c :: rest ∧ c.isAlpha = true
  chars : ∀ c ∈ tag.tail, isTagNameChar c = true

/-- Whether an XML name may begin with a character. -/
def isXmlNameStart (c : Char) : Bool :=
  c.isAlpha || c == ':' || c == '_' || Text.inRanges c.toNat
    [(0xC0, 0xD6), (0xD8, 0xF6), (0xF8, 0x2FF), (0x370, 0x37D), (0x37F, 0x1FFF), (0x200C, 0x200D), (0x2070, 0x218F),
      (0x2C00, 0x2FEF), (0x3001, 0xD7FF), (0xF900, 0xFDCF), (0xFDF0, 0xFFFD), (0x10000, 0xEFFFF)]

/-- Whether an XML name may go on with a character. -/
def isXmlNameChar (c : Char) : Bool :=
  isXmlNameStart c || c.isDigit || c == '-' || c == '.' ||
    Text.inRanges c.toNat [(0xB7, 0xB7), (0x300, 0x36F), (0x203F, 0x2040)]

/-- The names that XML has for elements and attributes. -/
structure IsXmlName (name : Text) : Prop where
  start : name.head?.any isXmlNameStart = true
  chars : ∀ c ∈ name, isXmlNameChar c = true

instance (name : Text) : Decidable (IsXmlName name) :=
  decidable_of_iff (name.head?.any isXmlNameStart = true ∧ ∀ c ∈ name, isXmlNameChar c = true)
    ⟨fun ⟨hStart, hChars⟩ => ⟨hStart, hChars⟩, fun h => ⟨h.start, h.chars⟩⟩

/-- Texts that can stand between tags as children. -/
structure IsContent (content : Text) : Prop where
  nonempty : content ≠ []
  trimmed : Trimmed content
  angle : '<' ∉ content

instance (key : Text) : Decidable (IsKey key) :=
  decidable_of_iff (key ≠ [] ∧ (∀ c ∈ key, isKeyChar c = true) ∧ '<' ∉ key ∧ '>' ∉ key)
    ⟨fun ⟨hSome, hChars, hAngles⟩ => ⟨hSome, hChars, hAngles⟩, fun h => ⟨h.nonempty, h.chars, h.angles⟩⟩

instance (tag : Text) : Decidable (IsTagName tag) :=
  decidable_of_iff (tag.head?.any Char.isAlpha = true ∧ ∀ c ∈ tag.tail, isTagNameChar c = true) <| by
    constructor
    · rintro ⟨hLetter, hChars⟩
      cases tag with
      | nil => cases hLetter
      | cons c rest => exact ⟨⟨c, rest, rfl, hLetter⟩, hChars⟩
    · rintro ⟨⟨c, rest, rfl, hLetter⟩, hChars⟩
      exact ⟨hLetter, hChars⟩

instance (s : Text) : Decidable (Trimmed s) :=
  decidable_of_iff (∀ c ∈ s.head?.toList ++ s.getLast?.toList, Text.isBlank c = false) <| by
    simp only [List.forall_mem_append, Option.mem_toList]
    exact ⟨fun ⟨hHead, hLast⟩ => ⟨hHead, hLast⟩, fun h => ⟨h.head, h.last⟩⟩

instance (content : Text) : Decidable (IsContent content) :=
  decidable_of_iff (content ≠ [] ∧ Trimmed content ∧ '<' ∉ content)
    ⟨fun ⟨hSome, hTrimmed, hAngle⟩ => ⟨hSome, hTrimmed, hAngle⟩, fun h => ⟨h.nonempty, h.trimmed, h.angle⟩⟩

namespace WrittenAttribute

def text (a : WrittenAttribute) : Text :=
  a.front ++ (a.key ++ (a.beforeEquals ++ '=' :: (a.afterEquals ++ a.quote :: (a.value ++ [a.quote]))))

def pair (a : WrittenAttribute) : Text × Text :=
  (a.key, a.value)

/-- Blanks set an attribute apart from what is in front of it, and its value does not hold its quotation mark. -/
structure WellFormed (a : WrittenAttribute) : Prop where
  apart : a.front ≠ []
  front : Blanks a.front
  key : IsKey a.key
  beforeEquals : Blanks a.beforeEquals
  afterEquals : Blanks a.afterEquals
  quote : a.quote = '"' ∨ a.quote = '\''
  value : a.quote ∉ a.value

end WrittenAttribute

/-- The opening tag of an element, which is its only tag if it closes itself. -/
structure Opening where
  tag : Text
  attributes : List WrittenAttribute
  back : Text
  selfClosing : Bool

namespace Opening

def pairs (opening : Opening) : Attributes :=
  opening.attributes.map WrittenAttribute.pair

def attributesText (opening : Opening) : Text :=
  opening.attributes.flatMap WrittenAttribute.text

def ending (opening : Opening) : Text :=
  opening.back ++ if opening.selfClosing then ['/'] else []

def inside (opening : Opening) : Text :=
  opening.attributesText ++ opening.ending

def text (opening : Opening) : Text :=
  '<' :: (opening.tag ++ (opening.inside ++ ['>']))

def element (opening : Opening) (children : List Node) : Element :=
  ⟨opening.tag, opening.pairs, children, opening.selfClosing⟩

structure WellFormed (opening : Opening) : Prop where
  tag : IsTagName opening.tag
  attributes : ∀ a ∈ opening.attributes, a.WellFormed
  back : Blanks opening.back

/-- Only double quotes are read as quotation marks. -/
structure Readable (opening : Opening) : Prop extends opening.WellFormed where
  quotes : ∀ a ∈ opening.attributes, a.quote = '"'

end Opening

def closingTag (tag blanks : Text) : Text :=
  '<' :: '/' :: (tag ++ (blanks ++ ['>']))

/-- Which forms markup may have: what may stand around nodes, which opening tags there may be, and what may stand
behind the name in a closing tag. -/
structure Style where
  gap : Text → Prop
  opening : Opening → Prop
  closing : Text → Prop

/-- The written forms of sibling nodes in a style. No two texts are neighbours, and an element that closes itself has
no children. -/
inductive Writes (style : Style) : List Node → Text → Prop
  | nil {gap : Text} : style.gap gap → Writes style [] gap
  | text {gap content s : Text} {rest : List Node} : style.gap gap → IsContent content →
      (∀ other, rest.head? ≠ some (.text other)) → Writes style rest s →
      Writes style (.text content :: rest) (gap ++ (content ++ s))
  | bodiless {gap s : Text} {opening : Opening} {rest : List Node} : style.gap gap → style.opening opening →
      opening.selfClosing = true → Writes style rest s →
      Writes style ((opening.element []).toNode :: rest) (gap ++ (opening.text ++ s))
  | body {gap inner blanks s : Text} {opening : Opening} {children rest : List Node} : style.gap gap →
      style.opening opening → opening.selfClosing = false → Writes style children inner → style.closing blanks →
      Writes style rest s →
      Writes style ((opening.element children).toNode :: rest)
        (gap ++ (opening.text ++ (inner ++ (closingTag opening.tag blanks ++ s))))

/-- The written forms of an element whose opening tag is known. -/
inductive Encloses (style : Style) (opening : Opening) : List Node → Text → Prop
  | bodiless : opening.selfClosing = true → Encloses style opening [] opening.text
  | body {children : List Node} {inner blanks : Text} : opening.selfClosing = false →
      Writes style children inner → style.closing blanks →
      Encloses style opening children (opening.text ++ (inner ++ closingTag opening.tag blanks))

/-- The written forms of an element, with nothing around it. -/
inductive WritesElement (style : Style) : Element → Text → Prop
  | mk {opening : Opening} {children : List Node} {s : Text} : style.opening opening →
      Encloses style opening children s → WritesElement style (opening.element children) s

/-- A style that the reader of markup follows: it takes blanks for gaps, and a `<` for the beginning of a tag
wherever it stands. -/
structure Style.Readable (style : Style) : Prop where
  gap : ∀ {gap}, style.gap gap → Blanks gap
  opening : ∀ {opening}, style.opening opening → opening.Readable ∧ ∀ a ∈ opening.attributes, '<' ∉ a.value
  closing : ∀ {blanks}, style.closing blanks → Blanks blanks

/-- An attribute behind a single space, with nothing around its equals sign. -/
def WrittenAttribute.plain (pair : Text × Text) : WrittenAttribute :=
  ⟨[' '], pair.1, [], [], '"', pair.2⟩

/-- Attributes that can be written in the plain style. -/
def Attributes.Plain (attributes : Attributes) : Prop :=
  ∀ pair ∈ attributes, IsKey pair.1 ∧ '"' ∉ pair.2 ∧ '<' ∉ pair.2

instance (attributes : Attributes) : Decidable attributes.Plain :=
  inferInstanceAs (Decidable (∀ pair ∈ attributes, _))

/-- The plain style: a single space in front of each attribute and, at will, of the slash that closes a tag. -/
def Style.plain : Style where
  gap := Blanks
  opening opening :=
    IsTagName opening.tag ∧ opening.pairs.Plain ∧
      opening.attributes = opening.pairs.map .plain ∧
      (opening.back = [] ∨ opening.selfClosing = true ∧ opening.back = [' '])
  closing blanks := blanks = []

def Opening.plain (tag : Text) (pairs : Attributes) (selfClosing : Bool) : Opening :=
  ⟨tag, pairs.map .plain, [], selfClosing⟩

@[simp] theorem Opening.plain_pairs (tag : Text) (pairs : Attributes) (selfClosing : Bool) :
    (Opening.plain tag pairs selfClosing).pairs = pairs := by
  simp [Opening.plain, Opening.pairs, Function.comp_def, WrittenAttribute.plain, WrittenAttribute.pair]

/-- Opening tags with plain attributes belong to the plain style. -/
theorem Style.plain_opening {tag : Text} {pairs : Attributes} (hTag : IsTagName tag) (hPairs : pairs.Plain)
    (selfClosing : Bool) : Style.plain.opening (.plain tag pairs selfClosing) := by
  refine ⟨hTag, ?_, ?_, .inl rfl⟩ <;> rw [Opening.plain_pairs]
  · exact hPairs
  · rfl

theorem WrittenAttribute.plain_wellFormed {pair : Text × Text} (hKey : IsKey pair.1) (hValue : '"' ∉ pair.2) :
    (WrittenAttribute.plain pair).WellFormed where
  apart := List.cons_ne_nil _ _
  front := (by decide : Blanks [' '])
  key := hKey
  beforeEquals := (by decide : Blanks [])
  afterEquals := (by decide : Blanks [])
  quote := .inl rfl
  value := hValue

theorem Opening.plain_readable {tag : Text} {pairs : Attributes} (hTag : IsTagName tag)
    (hPairs : ∀ pair ∈ pairs, IsKey pair.1 ∧ '"' ∉ pair.2) (selfClosing : Bool) :
    (Opening.plain tag pairs selfClosing).Readable where
  tag := hTag
  attributes a ha := by
    obtain ⟨pair, hPair, rfl⟩ := List.mem_map.mp ha
    exact WrittenAttribute.plain_wellFormed (hPairs pair hPair).1 (hPairs pair hPair).2
  back := (by decide : Blanks [])
  quotes a ha := by
    obtain ⟨pair, hPair, rfl⟩ := List.mem_map.mp ha
    rfl

/-- All that is written in the plain style can be read. -/
theorem Style.plain_readable : Style.plain.Readable where
  gap h := h
  opening := by
    rintro opening ⟨hTag, hPairs, hPlain, hBack⟩
    have hAttributes : ∀ a ∈ opening.attributes, a.WellFormed ∧ a.quote = '"' ∧ '<' ∉ a.value := by
      intro a ha
      rw [hPlain] at ha
      obtain ⟨pair, hPair, rfl⟩ := List.mem_map.mp ha
      obtain ⟨hKey, hQuote, hAngle⟩ := hPairs pair hPair
      exact ⟨WrittenAttribute.plain_wellFormed hKey hQuote, rfl, hAngle⟩
    have hBlanks : Blanks opening.back := by
      rcases hBack with hBack | ⟨-, hBack⟩ <;> rw [hBack] <;> decide
    exact ⟨⟨⟨hTag, fun a ha => (hAttributes a ha).1, hBlanks⟩, fun a ha => (hAttributes a ha).2.1⟩,
      fun a ha => (hAttributes a ha).2.2⟩
  closing := by
    rintro _ rfl
    decide

mutual

/-- Trees that can be written in the plain style. -/
def Node.Plain : Node → Prop
  | .text content => IsContent content
  | .element tag attributes children selfClosing =>
    IsTagName tag ∧ attributes.Plain ∧ (selfClosing = true → children = []) ∧ Node.PlainIn children

def Node.PlainIn : List Node → Prop
  | [] => True
  | node :: rest =>
    node.Plain ∧ (∀ content other, node = .text content → rest.head? ≠ some (.text other)) ∧ Node.PlainIn rest

end

/-- What is written in the plain style is plain. -/
theorem Writes.plainIn {nodes : List Node} {s : Text} (h : Writes .plain nodes s) : Node.PlainIn nodes := by
  induction h with
  | nil => trivial
  | text _ hContent hApart _ ih => exact ⟨hContent, fun _ other _ => hApart other, ih⟩
  | bodiless _ hOpening _ _ ih =>
      exact ⟨⟨hOpening.1, hOpening.2.1, fun _ => rfl, trivial⟩, fun _ _ hText => (nomatch hText), ih⟩
  | @body _ _ _ _ opening children _ _ hOpening hOpen _ _ _ ihInner ih =>
      have hBody : opening.selfClosing = true → children = [] := by simp [hOpen]
      exact ⟨⟨hOpening.1, hOpening.2.1, hBody, ihInner⟩, fun _ _ hText => (nomatch hText), ih⟩

/-- A text without tags is written for itself, if it is not blank. -/
theorem exists_writes {s : Text} (h : '<' ∉ s) : ∃ nodes, Writes .plain nodes s := by
  obtain ⟨front, content, back, rfl, hFront, hTrimmed, hBack⟩ := Text.exists_trimmed s
  cases content with
  | nil => exact ⟨[], .nil (List.forall_mem_append.mpr ⟨hFront, hBack⟩)⟩
  | cons c rest =>
      simp only [List.mem_append, not_or] at h
      exact ⟨_, .text hFront ⟨List.cons_ne_nil _ _, hTrimmed, h.2.1⟩ (by simp) (.nil hBack)⟩

/-- An element in front of further nodes is written with a gap in front of it. -/
theorem Encloses.writes {style : Style} {opening : Opening} {children rest : List Node} {gap s t : Text}
    (h : Encloses style opening children s) (hGap : style.gap gap) (hOpening : style.opening opening)
    (hRest : Writes style rest t) : Writes style ((opening.element children).toNode :: rest) (gap ++ (s ++ t)) := by
  cases h with
  | bodiless hClosing => exact .bodiless hGap hOpening hClosing hRest
  | body hOpen hInner hBlanks => simpa using Writes.body hGap hOpening hOpen hInner hBlanks hRest

theorem Opening.plain_element (tag : Text) (pairs : Attributes) (selfClosing : Bool) (children : List Node) :
    (Opening.plain tag pairs selfClosing).element children = ⟨tag, pairs, children, selfClosing⟩ := by
  rw [Opening.element, Opening.plain_pairs]
  rfl

/-- Every plain tag encloses what can be written inside of it. -/
theorem Writes.exists_encloses {inner : Text} {selfClosing : Bool} {children : List Node}
    (h : Writes .plain children inner) (hClosing : selfClosing = true → children = []) (tag : Text)
    (pairs : Attributes) : ∃ s, Encloses .plain (.plain tag pairs selfClosing) children s := by
  cases selfClosing with
  | true =>
      obtain rfl := hClosing rfl
      exact ⟨_, .bodiless rfl⟩
  | false => exact ⟨_, .body rfl h rfl⟩

/-- Plain nodes can be written in the plain style. -/
theorem Node.PlainIn.exists_writes {nodes : List Node} (h : Node.PlainIn nodes) : ∃ s, Writes .plain nodes s := by
  have hGap : Style.plain.gap [] := List.forall_mem_nil _
  match nodes with
  | [] => exact ⟨[], .nil hGap⟩
  | .text content :: rest =>
      obtain ⟨hContent, hApart, hRest⟩ := h
      obtain ⟨s, hs⟩ := hRest.exists_writes
      exact ⟨_, .text hGap hContent (fun other => hApart content other rfl) hs⟩
  | .element tag pairs children selfClosing :: rest =>
      obtain ⟨⟨hTag, hPairs, hClosing, hChildren⟩, -, hRest⟩ := h
      obtain ⟨t, ht⟩ := hRest.exists_writes
      obtain ⟨inner, hInner⟩ := hChildren.exists_writes
      obtain ⟨s, hs⟩ := hInner.exists_encloses hClosing tag pairs
      have hAll := hs.writes hGap (Style.plain_opening hTag hPairs selfClosing) ht
      rw [Opening.plain_element] at hAll
      exact ⟨_, hAll⟩

/-- The trees of plain nodes are those that have a written form. -/
theorem Element.plain_iff (e : Element) : e.toNode.Plain ↔ ∃ s, WritesElement .plain e s := by
  constructor
  · intro h
    obtain ⟨hTag, hPairs, hClosing, hChildren⟩ := h
    obtain ⟨inner, hInner⟩ := Node.PlainIn.exists_writes hChildren
    obtain ⟨s, hs⟩ := hInner.exists_encloses hClosing e.tag e.attributes
    have hAll := WritesElement.mk (Style.plain_opening hTag hPairs e.selfClosing) hs
    rw [Opening.plain_element] at hAll
    exact ⟨s, hAll⟩
  · rintro ⟨s, hOpening, hEncloses⟩
    cases hEncloses with
    | bodiless => exact ⟨hOpening.1, hOpening.2.1, fun _ => rfl, trivial⟩
    | body hOpen hInner => exact ⟨hOpening.1, hOpening.2.1, by simp [Opening.element, hOpen], hInner.plainIn⟩

end IconRegistry.Markup
