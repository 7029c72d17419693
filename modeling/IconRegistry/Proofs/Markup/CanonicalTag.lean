import IconRegistry.Markup.Canonical
import IconRegistry.Proofs.Markup.Mapping
import IconRegistry.Proofs.Markup.TagReading
import IconRegistry.Proofs.Text.Spacing
import IconRegistry.Proofs.Text.Substitution

/-! The canonical form of a tag, computed from how the tag is written: every attribute behind one space and in double
quotes, and nothing in front of the end of the tag. -/
namespace IconRegistry.Markup

open Text (isBlank Becomes Blanks PassesOver replaceAll singleSpaced substitute)

/-- A value as it stands in double quotes. -/
def requotedValue (value : Text) : Text :=
  value.flatMap fun c => if c = '"' then "&quot;".toList else [c]

/-- An attribute in double quotes. One that had them already keeps the blanks around its equals sign. -/
def WrittenAttribute.requoted (a : WrittenAttribute) : WrittenAttribute :=
  if a.quote = '"' then a
  else { a with beforeEquals := [], afterEquals := [], quote := '"', value := requotedValue a.value }

/-- Attributes in which canonicalization finds key and value. -/
structure WrittenAttribute.Regular (a : WrittenAttribute) : Prop extends a.WellFormed where
  apostrophe : '\'' ∉ a.key
  angles : '<' ∉ a.value ∧ '>' ∉ a.value

theorem not_mem_of_blank {c : Char} (h : isBlank c = true) : c ∉ ['=', '"', '\'', '>'] := by
  intro hMember
  have hNone : ∀ c ∈ ['=', '"', '\'', '>'], isBlank c = false := by decide
  rw [hNone c hMember] at h
  cases h

/-- Attributes in which canonicalization finds key and value, whatever the value is. What stands in front of the key may
have the name of the tag in it, but it ends in a blank. -/
structure WrittenAttribute.Led (a : WrittenAttribute) : Prop where
  front : ∀ c ∈ a.front, c ∉ ['=', '"', '\'', '>']
  apart : ∃ lead b, a.front = lead ++ [b] ∧ isBlank b = true
  nonempty : a.key ≠ []
  key : ∀ c ∈ a.key, isRequotedKeyChar c = true
  beforeEquals : Blanks a.beforeEquals
  afterEquals : Blanks a.afterEquals
  quote : a.quote = '"' ∨ a.quote = '\''
  value : a.quote ∉ a.value

section Requoting

variable {s rest key before after value : Text} {b c q : Char}

theorem isBlank_of_isKeyChar {c : Char} (h : isKeyChar c = true) : isBlank c = false := by
  cases hc : isBlank c with
  | false => rfl
  | true => simp [isKeyChar, hc] at h

/-- An attribute to be quoted anew has a blank in front of it. -/
theorem requotedAttribute?_of_not_blank (hc : isBlank c = false) : requotedAttribute? (c :: s) = none := by
  simp [requotedAttribute?, hc]

/-- Behind the last blank, there has to be a key. -/
theorem requotedAttribute?_of_not_key (h : ∀ d, s.head? = some d → isRequotedKeyChar d = false) :
    requotedAttribute? (c :: s) = none := by
  have hKey : s.takeWhile isRequotedKeyChar = [] := by
    cases s with
    | nil => rfl
    | cons d s => exact List.takeWhile_cons_of_neg (by simp [h d rfl])
  simp [requotedAttribute?, hKey]

theorem isRequotedKeyChar_of_blank (hc : isBlank c = true) : isRequotedKeyChar c = false := by
  simp [isRequotedKeyChar, isKeyChar, hc]

/-- Blanks in front of something that is no key stay as they are. -/
theorem becomes_requoting_blanks (h : Blanks s) (hc : isBlank c = false) (hKey : isRequotedKeyChar c = false) :
    Becomes requotedAttribute? (s ++ [c]) (s ++ [c]) := by
  induction s with
  | nil => exact .cons (fun rest => requotedAttribute?_of_not_blank hc) .nil
  | cons d s ih =>
      obtain ⟨hd, hs⟩ := List.forall_mem_cons.mp h
      refine .cons (fun rest => requotedAttribute?_of_not_key ?_) (ih hs)
      intro e he
      cases s with
      | nil =>
          obtain rfl : c = e := by simpa using he
          exact hKey
      | cons f s =>
          obtain rfl : f = e := by simpa using he
          exact isRequotedKeyChar_of_blank (hs f List.mem_cons_self)

/-- An attribute behind a blank gets double quotes, and what it holds of them is spelled out. -/
theorem requotedAttribute?_match (hb : isBlank b = true) (hSome : key ≠ [])
    (hKey : ∀ d ∈ key, isRequotedKeyChar d = true) (hBefore : Blanks before) (hAfter : Blanks after)
    (hq : q = '"' ∨ q = '\'') (hValue : q ∉ value) (rest : Text) :
    requotedAttribute? (b :: (key ++ (before ++ '=' :: (after ++ q :: (value ++ q :: rest))))) =
      some (b :: (if q = '"' then key ++ (before ++ '=' :: (after ++ q :: (value ++ [q])))
        else key ++ ('=' :: '"' :: (requotedValue value ++ ['"']))),
        (key ++ (before ++ '=' :: (after ++ q :: (value ++ [q])))).length) := by
  have hStop : ∃ d t, before ++ '=' :: (after ++ q :: (value ++ q :: rest)) = d :: t ∧ isRequotedKeyChar d = false := by
    cases before with
    | nil => exact ⟨'=', _, rfl, by decide⟩
    | cons d before => exact ⟨d, _, rfl, isRequotedKeyChar_of_blank (hBefore d List.mem_cons_self)⟩
  have hTake : (key ++ (before ++ '=' :: (after ++ q :: (value ++ q :: rest)))).takeWhile isRequotedKeyChar = key := by
    obtain ⟨d, t, hParts, hd⟩ := hStop
    rw [hParts, List.takeWhile_append_of_pos hKey, List.takeWhile_cons_of_neg (by simp [hd]), List.append_nil]
  have hEquals : ∀ t, Text.trimStart (before ++ '=' :: t) = '=' :: t :=
    fun t => Text.trimStart_append_cons hBefore (by decide)
  have hOpen : ∀ t, Text.trimStart (after ++ q :: t) = q :: t :=
    fun t => Text.trimStart_append_cons hAfter (by rcases hq with rfl | rfl <;> decide)
  have hParts : key ++ (before ++ '=' :: (after ++ q :: (value ++ q :: rest))) =
      key ++ (before ++ '=' :: (after ++ q :: (value ++ [q]))) ++ rest := by simp
  have hCovered : (key ++ (before ++ '=' :: (after ++ q :: (value ++ q :: rest)))).length - rest.length =
      (key ++ (before ++ '=' :: (after ++ q :: (value ++ [q])))).length := by
    rw [hParts, List.length_append, Nat.add_sub_cancel]
  have hTaken : (key ++ (before ++ '=' :: (after ++ q :: (value ++ q :: rest)))).take
      (key ++ (before ++ '=' :: (after ++ q :: (value ++ [q])))).length =
        key ++ (before ++ '=' :: (after ++ q :: (value ++ [q]))) := by
    rw [hParts, List.take_left]
  have hFront : Text.dropFront? ['='] ('=' :: (after ++ q :: (value ++ q :: rest))) =
      some (after ++ q :: (value ++ q :: rest)) := Text.dropFront?_append ['='] _
  have hSplit := Text.splitAtText?_char hValue rest
  have hNotEmpty : key.isEmpty = false := by simpa using hSome
  rw [requotedAttribute?]
  rcases hq with rfl | rfl
  · simp only [hTake, hb, hNotEmpty, List.drop_left, hEquals, hFront, hOpen, hSplit, hCovered, hTaken, bind,
      Option.bind_some]
    rfl
  · simp only [hTake, hb, hNotEmpty, List.drop_left, hEquals, hFront, hOpen, hSplit, hCovered, bind, Option.bind_some,
      Text.replaceAll_char]
    simp only [Bool.not_true, Bool.or_self, Bool.false_eq_true, if_false, Char.reduceEq, requotedValue,
      List.append_assoc, List.cons_append]
    rfl

variable {a : WrittenAttribute}

theorem WrittenAttribute.Regular.requoting_key (h : a.Regular) : ∀ d ∈ a.key, isRequotedKeyChar d = true := by
  intro d hd
  have hApostrophe : d ≠ '\'' := fun hSame => h.apostrophe (hSame ▸ hd)
  have hAngle : d ≠ '>' := fun hSame => h.key.angles.2 (hSame ▸ hd)
  simp [isRequotedKeyChar, h.key.chars d hd, hApostrophe, hAngle]

theorem exists_last_blank (hSome : s ≠ []) (h : Blanks s) : ∃ lead b, s = lead ++ [b] ∧ isBlank b = true := by
  obtain ⟨lead, b, rfl⟩ := (List.eq_nil_or_concat s).resolve_left hSome
  rw [List.concat_eq_append] at *
  exact ⟨lead, b, rfl, h b (by simp)⟩

/-- A regular attribute stands behind a blank. -/
theorem WrittenAttribute.Regular.led (h : a.Regular) : a.Led where
  front := fun c hc => not_mem_of_blank (h.front c hc)
  apart := exists_last_blank h.apart h.front
  nonempty := h.key.nonempty
  key := h.requoting_key
  beforeEquals := h.beforeEquals
  afterEquals := h.afterEquals
  quote := h.quote
  value := h.value

/-- What is in front of the last blank has no equals sign behind any of its words. -/
theorem requotedAttribute?_of_lead {lead : Text} {k : Char} (hLead : '=' ∉ lead) (hb : isBlank b = true)
    (hk : isBlank k = false) (hEquals : k ≠ '=') (t : Text) :
    requotedAttribute? (c :: (lead ++ b :: k :: t)) = none := by
  have hHead : ∀ u, '=' ∉ u → Text.dropFront? ['='] (Text.trimStart (u ++ b :: k :: t)) = none := by
    intro u hu
    induction u with
    | nil => simp [Text.trimStart, hb, hk, Text.dropFront?, hEquals.symm]
    | cons d u ih =>
        obtain ⟨hd, hu⟩ := List.ne_and_not_mem_of_not_mem_cons hu
        cases hBlank : isBlank d with
        | true => simpa [Text.trimStart, hBlank] using ih hu
        | false => simp [Text.trimStart, hBlank, Text.dropFront?, hd]
  have hTake : (lead ++ b :: k :: t).takeWhile isRequotedKeyChar = lead.takeWhile isRequotedKeyChar := by
    rw [List.takeWhile_append, List.takeWhile_cons_of_neg (by simp [isRequotedKeyChar_of_blank hb]), List.append_nil]
    split
    · rename_i hAll
      exact ((List.takeWhile_prefix _).eq_of_length hAll).symm
    · rfl
  have hShort : (lead.takeWhile isRequotedKeyChar).length ≤ lead.length := (List.takeWhile_prefix _).length_le
  have hNone := hHead (lead.drop (lead.takeWhile isRequotedKeyChar).length) fun h => hLead (List.mem_of_mem_drop h)
  rw [← List.drop_append_of_le_length hShort] at hNone
  simp only [requotedAttribute?, hTake, hNone]
  split <;> rfl

/-- Only the last blank in front of an attribute is looked at together with it. -/
theorem WrittenAttribute.Led.becomes_requoted (h : a.Led) : Becomes requotedAttribute? a.text a.requoted.text := by
  obtain ⟨lead, b, hFront, hb⟩ := h.apart
  obtain ⟨k, key, hKey⟩ := List.exists_cons_of_ne_nil h.nonempty
  have hk : isKeyChar k = true := by
    have hRequoted := h.key k (by simp [hKey])
    simp only [isRequotedKeyChar, Bool.and_eq_true] at hRequoted
    exact hRequoted.1.1
  have hEquals : k ≠ '=' := by
    rintro rfl
    exact absurd hk (by decide)
  have hLead : '=' ∉ lead := fun hMember => h.front '=' (by simp [hFront, hMember]) (by simp)
  intro rest
  have hMatch := requotedAttribute?_match hb h.nonempty h.key h.beforeEquals h.afterEquals h.quote h.value rest
  have hText : a.text ++ rest = lead ++ b :: (a.key ++ (a.beforeEquals ++ '=' :: (a.afterEquals ++
      a.quote :: (a.value ++ [a.quote]))) ++ rest) := by
    simp [WrittenAttribute.text, hFront]
  have hNone : ∀ t u, u ≠ [] → u <:+ lead → requotedAttribute? (u ++ b :: (k :: t)) = none := by
    intro t u hu hSuffix
    obtain ⟨c, u, rfl⟩ := List.exists_cons_of_ne_nil hu
    exact requotedAttribute?_of_lead (fun hMember => hLead (hSuffix.subset (List.mem_cons_of_mem c hMember))) hb
      (isBlank_of_isKeyChar hk) hEquals t
  rw [hText, Text.substitute_append_of_none fun u hu hSuffix => by simpa [hKey] using hNone _ u hu hSuffix,
    Text.substitute_of_match (by simpa using hMatch), WrittenAttribute.requoted]
  split
  · rename_i hQuote
    simp [WrittenAttribute.text, hFront, hQuote]
  · simp [WrittenAttribute.text, hFront]

end Requoting

section Spacing

def collapsing : Text → Option (Text × Nat)
  | c :: rest => if isBlank c then some ([' '], (rest.takeWhile isBlank).length) else none
  | [] => none

/-- Collapsing blanks step by step is single spacing. -/
theorem substitute_collapsing (s : Text) : substitute collapsing s = singleSpaced s := by
  match s with
  | [] => rfl
  | c :: rest =>
      cases hc : isBlank c with
      | false =>
          rw [Text.substitute_cons_of_none (by simp [collapsing, hc]), Text.singleSpaced_cons_of_not_blank hc,
            substitute_collapsing rest]
      | true =>
          have hParts : rest.takeWhile isBlank ++ rest.dropWhile isBlank = rest := List.takeWhile_append_dropWhile
          have hMatch : collapsing (c :: (rest.takeWhile isBlank ++ rest.dropWhile isBlank)) =
              some ([' '], (rest.takeWhile isBlank).length) := by
            rw [hParts]
            simp [collapsing, hc]
          have hSkip := Text.substitute_of_match hMatch
          rw [hParts, substitute_collapsing (rest.dropWhile isBlank)] at hSkip
          rw [hSkip, Text.singleSpaced_cons_of_blank hc]
          rfl
termination_by s.length
decreasing_by
  · simp
  · have := (List.dropWhile_suffix (p := isBlank) (l := rest)).length_le
    simp only [List.length_cons]
    omega

theorem collapseBlanks_eq (s : Text) : collapseBlanks s = singleSpaced s := by
  have hStep : collapseBlanks = substitute collapsing := by
    rw [collapseBlanks]
    congr 1
  rw [hStep, substitute_collapsing]

def WrittenAttribute.spaced (a : WrittenAttribute) : WrittenAttribute :=
  ⟨singleSpaced a.front, a.key, singleSpaced a.beforeEquals, singleSpaced a.afterEquals, a.quote, singleSpaced a.value⟩

/-- The runs of blanks in an attribute are those in its parts. -/
theorem WrittenAttribute.singleSpaced_text {a : WrittenAttribute} (hSome : a.key ≠ [])
    (hKey : ∀ c ∈ a.key, isBlank c = false) (hQuote : a.quote = '"' ∨ a.quote = '\'') (rest : Text) :
    singleSpaced (a.text ++ rest) = a.spaced.text ++ singleSpaced rest := by
  obtain ⟨k, key, hParts⟩ := List.exists_cons_of_ne_nil hSome
  rw [hParts] at hKey
  obtain ⟨hk, hChars⟩ := List.forall_mem_cons.mp hKey
  have hQuote : isBlank a.quote = false := by rcases hQuote with hq | hq <;> rw [hq] <;> decide
  have hText : a.text ++ rest = a.front ++ k :: (key ++ (a.beforeEquals ++ '=' :: (a.afterEquals ++
      a.quote :: (a.value ++ a.quote :: rest)))) := by
    simp [WrittenAttribute.text, hParts]
  rw [hText, Text.singleSpaced_append_cons hk, Text.singleSpaced_append_of_not_blank hChars,
    Text.singleSpaced_append_cons (by decide), Text.singleSpaced_append_cons hQuote,
    Text.singleSpaced_append_cons hQuote]
  simp [WrittenAttribute.text, WrittenAttribute.spaced, hParts]

/-- Single spacing takes attributes apart one by one, their values included. -/
theorem WrittenAttribute.WellFormed.singleSpaced_text {a : WrittenAttribute} (h : a.WellFormed) (rest : Text) :
    singleSpaced (a.text ++ rest) = a.spaced.text ++ singleSpaced rest :=
  WrittenAttribute.singleSpaced_text h.key.nonempty (fun c hc => isBlank_of_isKeyChar (h.key.chars c hc)) h.quote rest

end Spacing

/-- Tags that canonicalization understands; closing tags are among them. -/
structure Opening.Regular (opening : Opening) : Prop where
  tag : ∀ c ∈ opening.tag, isBlank c = false ∧ c ∉ ['"', '\'', '>']
  last : ∃ front c, opening.tag = front ++ [c] ∧ c ≠ '/'
  attributes : ∀ a ∈ opening.attributes, a.Regular
  back : Blanks opening.back

namespace Opening

def requoted (opening : Opening) : Opening :=
  { opening with attributes := opening.attributes.map .requoted }

def spaced (opening : Opening) : Opening :=
  { opening with attributes := opening.attributes.map .spaced, back := singleSpaced opening.back }

/-- The tag with nothing in front of its end. -/
def closedUp (opening : Opening) : Opening :=
  { opening with back := [] }

def canonical (opening : Opening) : Opening :=
  opening.requoted.spaced.closedUp

/-- The text of a tag up to its attributes and behind them. -/
theorem text_eq (opening : Opening) :
    opening.text = '<' :: opening.tag ++ opening.attributes.flatMap WrittenAttribute.text ++
      (opening.back ++ ((if opening.selfClosing then ['/'] else []) ++ ['>'])) := by
  simp [Opening.text, Opening.inside, Opening.ending, Opening.attributesText]

variable {opening : Opening}

/-- What stands behind the attributes is not requoted. -/
theorem becomes_requoting_end {back : Text} (h : Blanks back) (slash : Bool) :
    Becomes requotedAttribute? (back ++ ((if slash then ['/'] else []) ++ ['>']))
      (back ++ ((if slash then ['/'] else []) ++ ['>'])) := by
  have hAngle : Becomes requotedAttribute? ['>'] ['>'] :=
    .cons (fun _ => requotedAttribute?_of_not_blank (by decide)) .nil
  split
  · rw [← List.append_assoc]
    exact (becomes_requoting_blanks h (by decide) (by decide)).append hAngle
  · exact becomes_requoting_blanks h (by decide) (by decide)

/-- Quoting a regular tag anew quotes each of its attributes anew. -/
theorem Regular.becomes_requoted (h : opening.Regular) :
    Becomes requotedAttribute? opening.text opening.requoted.text := by
  have hTag : Becomes requotedAttribute? ('<' :: opening.tag) ('<' :: opening.tag) := by
    refine .self fun c hc rest => requotedAttribute?_of_not_blank ?_
    rcases List.mem_cons.mp hc with rfl | hc
    · decide
    · exact (h.tag c hc).1
  have hAttributes : Becomes requotedAttribute? (opening.attributes.flatMap WrittenAttribute.text)
      (opening.attributes.flatMap fun a => a.requoted.text) :=
    .flatMap fun a ha => (h.attributes a ha).led.becomes_requoted
  rw [text_eq, text_eq, requoted]
  simp only [List.flatMap_map]
  exact (hTag.append hAttributes).append (becomes_requoting_end h.back _)

/-- What holds of the spacing of each attribute holds of all of them in a row. -/
theorem singleSpaced_attributes {attributes : List WrittenAttribute}
    (h : ∀ a ∈ attributes, ∀ rest, singleSpaced (a.text ++ rest) = a.spaced.text ++ singleSpaced rest) (rest : Text) :
    singleSpaced (attributes.flatMap WrittenAttribute.text ++ rest) =
      (attributes.map WrittenAttribute.spaced).flatMap WrittenAttribute.text ++ singleSpaced rest := by
  induction attributes with
  | nil => rfl
  | cons a attributes ih =>
      obtain ⟨ha, hRest⟩ := List.forall_mem_cons.mp h
      rw [List.flatMap_cons, List.append_assoc, ha, ih hRest, List.map_cons, List.flatMap_cons, List.append_assoc]

theorem singleSpaced_end (back : Text) (slash : Bool) :
    singleSpaced (back ++ ((if slash then ['/'] else []) ++ ['>'])) =
      singleSpaced back ++ ((if slash then ['/'] else []) ++ ['>']) := by
  have hLast : singleSpaced ['>'] = ['>'] := by decide
  split
  · rw [List.cons_append, Text.singleSpaced_append_cons (by decide), List.nil_append, hLast]
  · rw [List.nil_append, Text.singleSpaced_append_cons (by decide)]
    rfl

/-- Single spacing a tag spaces its attributes. -/
theorem singleSpaced_text (hTag : ∀ c ∈ opening.tag, isBlank c = false) (h : ∀ a ∈ opening.attributes, a.WellFormed) :
    singleSpaced opening.text = opening.spaced.text := by
  have hName : ∀ c ∈ '<' :: opening.tag, isBlank c = false :=
    List.forall_mem_cons.mpr ⟨by decide, hTag⟩
  rw [text_eq, text_eq, List.append_assoc, Text.singleSpaced_append_of_not_blank hName,
    singleSpaced_attributes fun a ha => (h a ha).singleSpaced_text, singleSpaced_end,
    List.append_assoc]
  rfl

theorem not_suffix_of_last_ne {s t : Text} {c d : Char} (h : c ≠ d) : ¬s ++ [c] <:+ t ++ [d] := by
  intro hSuffix
  have hLast : [c] = [d] := ((List.suffix_append_inj_of_length_eq (by simp)).mp hSuffix).2
  exact h (List.cons_eq_cons.mp hLast).1

/-- A space in front of the end of a tag is dropped, with a slash and without one. -/
theorem replaceAll_end {s : Text} (hAngle : '>' ∉ s) (hLast : ∃ t c, s = t ++ [c] ∧ c ≠ ' ' ∧ c ≠ '/')
    {back : Text} (hBack : back = [] ∨ back = [' ']) (slash : Bool) :
    replaceAll " >".toList ">".toList
        (replaceAll " />".toList "/>".toList (s ++ (back ++ ((if slash then ['/'] else []) ++ ['>'])))) =
      s ++ ((if slash then ['/'] else []) ++ ['>']) := by
  obtain ⟨t, c, rfl, hSpace, hSlash⟩ := hLast
  have hNeedles : " />".toList = ([' '] ++ ['/']) ++ ['>'] ∧ " >".toList = [' '] ++ ['>'] := ⟨rfl, rfl⟩
  rw [hNeedles.1, hNeedles.2]
  cases slash with
  | true =>
      have hSlashed : '>' ∉ t ++ [c] ++ ['/'] := by simpa using hAngle
      have hFirst : replaceAll ([' '] ++ ['/'] ++ ['>']) "/>".toList (t ++ [c] ++ (back ++ (['/'] ++ ['>']))) =
          t ++ [c] ++ ['/'] ++ ['>'] := by
        rcases hBack with rfl | rfl
        · have hNone : ¬[' '] ++ ['/'] <:+ t ++ [c] ++ ['/'] := by
            rw [List.suffix_append_inj_of_length_eq rfl]
            exact fun h => not_suffix_of_last_ne (s := []) hSpace.symm h.1
          simpa using Text.replaceAll_concat_of_not_suffix "/>".toList hSlashed hNone
        · simpa using Text.replaceAll_concat "/>".toList hAngle (by decide : '>' ∉ [' '] ++ ['/'])
      have hSecond := Text.replaceAll_concat_of_not_suffix ">".toList hSlashed
        (not_suffix_of_last_ne (s := []) (by decide : ' ' ≠ '/'))
      rw [if_pos rfl, hFirst]
      simpa using hSecond
  | false =>
      have hSecond : replaceAll ([' '] ++ ['>']) ">".toList (t ++ [c] ++ (back ++ ['>'])) = t ++ [c] ++ ['>'] := by
        rcases hBack with rfl | rfl
        · exact Text.replaceAll_concat_of_not_suffix _ hAngle (not_suffix_of_last_ne (s := []) hSpace.symm)
        · exact Text.replaceAll_concat _ hAngle (by decide)
      have hFirst : replaceAll ([' '] ++ ['/'] ++ ['>']) "/>".toList (t ++ [c] ++ (back ++ ['>'])) =
          t ++ [c] ++ (back ++ ['>']) := by
        rcases hBack with rfl | rfl
        · exact Text.replaceAll_concat_of_not_suffix _ hAngle (not_suffix_of_last_ne hSlash.symm)
        · have hSpaced : '>' ∉ t ++ [c] ++ [' '] := by simpa using hAngle
          have hNone : ¬[' '] ++ ['/'] <:+ t ++ [c] ++ [' '] := not_suffix_of_last_ne (by decide)
          simpa using Text.replaceAll_concat_of_not_suffix "/>".toList hSpaced hNone
      rw [if_neg (by decide), List.nil_append, hFirst]
      exact hSecond

end Opening

section Regular

variable {a : WrittenAttribute} {opening : Opening}

theorem requotedValue_of_not_mem {value : Text} (h : '"' ∉ value) : requotedValue value = value := by
  rw [requotedValue, ← Text.replaceAll_char, Text.replaceAll_of_not_mem _ h]

/-- No double quote is left in a value, but for the characters that spell it. -/
theorem mem_requotedValue {value : Text} {c : Char} (h : c ∈ requotedValue value) :
    c ∈ value ∧ c ≠ '"' ∨ c ∈ "&quot;".toList := by
  obtain ⟨d, hd, hMember⟩ := List.mem_flatMap.mp h
  split at hMember
  · exact .inr hMember
  · rename_i hOther
    obtain rfl := List.mem_singleton.mp hMember
    exact .inl ⟨hd, hOther⟩

/-- Quoted anew, an attribute has double quotes and the value that spells them. -/
theorem WrittenAttribute.requoted_pair (h : a.quote ∉ a.value) :
    a.requoted.quote = '"' ∧ a.requoted.pair = (a.key, requotedValue a.value) := by
  rw [requoted]
  split
  · rename_i hQuote
    rw [hQuote] at h
    exact ⟨hQuote, by rw [pair, requotedValue_of_not_mem h]⟩
  · exact ⟨rfl, rfl⟩

/-- A regular attribute is still one with its new quotes. -/
theorem WrittenAttribute.Regular.requoted (h : a.Regular) : a.requoted.Regular := by
  rw [WrittenAttribute.requoted]
  split
  · exact h
  · have hNone : Blanks [] := List.forall_mem_nil _
    have hFree : ∀ {c}, c ∉ a.value → c ∉ "&quot;".toList → c ∉ requotedValue a.value := fun hValue hEntity hMember =>
      (mem_requotedValue hMember).elim (fun h => hValue h.1) hEntity
    have hQuote : '"' ∉ requotedValue a.value := fun hMember =>
      (mem_requotedValue hMember).elim (fun h => h.2 rfl) (by decide)
    exact ⟨⟨h.apart, h.front, h.key, hNone, hNone, .inl rfl, hQuote⟩, h.apostrophe, hFree h.angles.1 (by decide),
      hFree h.angles.2 (by decide)⟩

theorem WrittenAttribute.Regular.spaced (h : a.Regular) : a.spaced.Regular := by
  have hFree : ∀ {c}, c ∉ a.value → c ≠ ' ' → c ∉ singleSpaced a.value := fun hValue hOther hMember =>
    (Text.mem_singleSpaced hMember).elim hValue hOther
  have hApart : singleSpaced a.front ≠ [] := by
    rw [Text.singleSpaced_of_blanks h.front, if_neg h.apart]
    exact List.cons_ne_nil _ _
  have hQuote : a.quote ≠ ' ' := by rcases h.quote with hq | hq <;> rw [hq] <;> decide
  exact ⟨⟨hApart, Text.blanks_singleSpaced h.front, h.key, Text.blanks_singleSpaced h.beforeEquals,
    Text.blanks_singleSpaced h.afterEquals, h.quote, hFree h.value hQuote⟩, h.apostrophe,
    hFree h.angles.1 (by decide), hFree h.angles.2 (by decide)⟩

theorem Opening.Regular.spaced (h : opening.Regular) : opening.requoted.spaced.Regular where
  tag := h.tag
  last := h.last
  attributes a ha := by
    simp only [Opening.spaced, Opening.requoted, List.map_map, List.mem_map] at ha
    obtain ⟨b, hb, rfl⟩ := ha
    exact (h.attributes b hb).requoted.spaced
  back := Text.blanks_singleSpaced h.back

/-- No tag ends in a regular attribute. -/
theorem WrittenAttribute.Regular.angle_not_mem (h : a.Regular) : '>' ∉ a.text := by
  have hFront := not_mem_of_blanks (c := '>') h.front (by decide)
  have hBefore := not_mem_of_blanks (c := '>') h.beforeEquals (by decide)
  have hAfter := not_mem_of_blanks (c := '>') h.afterEquals (by decide)
  have hQuote : a.quote ≠ '>' := by rcases h.quote with hq | hq <;> rw [hq] <;> decide
  simp [WrittenAttribute.text, hFront, h.key.angles.2, hBefore, hAfter, h.angles.2, hQuote.symm]

/-- The text of a tag up to the end of its attributes. -/
theorem Opening.Regular.front (h : opening.Regular) :
    '>' ∉ '<' :: opening.tag ++ opening.attributes.flatMap WrittenAttribute.text ∧
      ∃ t c, '<' :: opening.tag ++ opening.attributes.flatMap WrittenAttribute.text = t ++ [c] ∧ c ≠ ' ' ∧ c ≠ '/' := by
  constructor
  · rw [List.mem_append, List.mem_flatMap]
    rintro (hMember | ⟨a, ha, hMember⟩)
    · rcases List.mem_cons.mp hMember with hSame | hMember
      · exact absurd hSame (by decide)
      · exact (h.tag _ hMember).2 (by decide)
    · exact (h.attributes a ha).angle_not_mem hMember
  · rcases List.eq_nil_or_concat opening.attributes with hNone | ⟨rest, a, hLast⟩
    · obtain ⟨front, c, hTag, hSlash⟩ := h.last
      have hBlank := (h.tag c (by simp [hTag])).1
      refine ⟨'<' :: front, c, by simp [hNone, hTag], ?_, hSlash⟩
      rintro rfl
      exact absurd hBlank (by decide)
    · have hQuote := (h.attributes a (by simp [hLast])).quote
      refine ⟨'<' :: opening.tag ++ rest.flatMap WrittenAttribute.text ++ (a.front ++ (a.key ++ (a.beforeEquals ++
        '=' :: (a.afterEquals ++ a.quote :: a.value)))), a.quote, by simp [hLast, WrittenAttribute.text], ?_, ?_⟩ <;>
      rcases hQuote with hq | hq <;> rw [hq] <;> decide

/-- Canonicalization of a tag goes by its parts. -/
theorem Opening.Regular.canonicalTag_text (h : opening.Regular) :
    canonicalTag opening.text = opening.canonical.text := by
  have hWellFormed : ∀ a ∈ opening.requoted.attributes, a.WellFormed := by
    intro a ha
    obtain ⟨b, hb, rfl⟩ := List.mem_map.mp ha
    exact (h.attributes b hb).requoted.toWellFormed
  have hTag : ∀ c ∈ opening.requoted.tag, isBlank c = false := fun c hc => (h.tag c hc).1
  have hSpaced : collapseBlanks opening.requoted.text = opening.requoted.spaced.text := by
    rw [collapseBlanks_eq, Opening.singleSpaced_text hTag hWellFormed]
  have hBack : opening.requoted.spaced.back = [] ∨ opening.requoted.spaced.back = [' '] :=
    Text.singleSpaced_eq_or h.back
  obtain ⟨hAngle, hLast⟩ := h.spaced.front
  rw [canonicalTag, h.becomes_requoted.substitute_eq, hSpaced, Opening.text_eq,
    Opening.replaceAll_end hAngle hLast hBack, Opening.text_eq]
  rfl

end Regular

section Scan

variable {s value : Text} {q : Char} {a : WrittenAttribute} {opening : Opening}

theorem passesOver_unquoted (h : ∀ c ∈ s, c ∉ ['"', '\'', '>']) : PassesOver (splitTagEndAnyQuote? none) s := by
  refine .of_forall fun c hc rest => ?_
  have hOther : c ≠ '"' ∧ c ≠ '\'' ∧ c ≠ '>' := by simpa using h c hc
  simp [splitTagEndAnyQuote?, hOther]

/-- The search for the end of a tag passes over quoted texts of either kind. -/
theorem passesOver_anyQuoted (hq : q = '"' ∨ q = '\'') (h : q ∉ value) :
    PassesOver (splitTagEndAnyQuote? none) (q :: (value ++ [q])) := by
  have hInside : ∀ rest, splitTagEndAnyQuote? (some q) (value ++ q :: rest) =
      (splitTagEndAnyQuote? none rest).map fun parts => (value ++ q :: parts.1, parts.2) := by
    intro rest
    induction value with
    | nil => simp [splitTagEndAnyQuote?]
    | cons c value ih =>
        obtain ⟨hc, hValue⟩ := List.ne_and_not_mem_of_not_mem_cons h
        rw [List.cons_append, splitTagEndAnyQuote?, if_neg (by simpa using hc.symm), ih hValue, Option.map_map]
        rfl
  intro rest
  have hOpen : splitTagEndAnyQuote? none (q :: (value ++ q :: rest)) =
      (splitTagEndAnyQuote? (some q) (value ++ q :: rest)).map fun parts => (q :: parts.1, parts.2) := by
    rcases hq with rfl | rfl <;> rfl
  have hText : q :: (value ++ [q]) ++ rest = q :: (value ++ q :: rest) := by simp
  rw [hText, hOpen, hInside, Option.map_map]
  congr 1
  funext parts
  simp

theorem passesOver_unquotedBlanks (h : Blanks s) : PassesOver (splitTagEndAnyQuote? none) s :=
  passesOver_unquoted fun c hc => List.not_mem_of_not_mem_cons (not_mem_of_blank (h c hc))

/-- A value may hold anything but its own quotation mark. -/
theorem WrittenAttribute.passesOver (hFront : ∀ c ∈ a.front, c ∉ ['"', '\'', '>'])
    (hKey : ∀ c ∈ a.key, c ∉ ['"', '\'', '>']) (hBefore : Blanks a.beforeEquals) (hAfter : Blanks a.afterEquals)
    (hQuote : a.quote = '"' ∨ a.quote = '\'') (hValue : a.quote ∉ a.value) :
    PassesOver (splitTagEndAnyQuote? none) a.text := by
  have hEquals : PassesOver (splitTagEndAnyQuote? none) ['='] := passesOver_unquoted (by decide)
  exact (passesOver_unquoted hFront).append ((passesOver_unquoted hKey).append ((passesOver_unquotedBlanks hBefore).append
    (hEquals.append ((passesOver_unquotedBlanks hAfter).append (passesOver_anyQuoted hQuote hValue)))))

theorem WrittenAttribute.Regular.passesOver (h : a.Regular) : PassesOver (splitTagEndAnyQuote? none) a.text := by
  have hFree : '"' ∉ a.key := h.key.not_mem (by decide)
  have hAll : ∀ c ∈ ['"', '\'', '>'], c ∉ a.key := by simp [hFree, h.apostrophe, h.key.angles.2]
  exact WrittenAttribute.passesOver (fun c hc => List.not_mem_of_not_mem_cons (not_mem_of_blank (h.front c hc)))
    (fun c hc hMember => hAll c hMember hc) h.beforeEquals h.afterEquals h.quote h.value

/-- The search for the end of a tag passes over its attributes if it passes over each. -/
theorem Opening.passesOver (hTag : ∀ c ∈ opening.tag, c ∉ ['"', '\'', '>'])
    (hAttributes : ∀ a ∈ opening.attributes, PassesOver (splitTagEndAnyQuote? none) a.text)
    (hBack : Blanks opening.back) : PassesOver (splitTagEndAnyQuote? none) (opening.tag ++ opening.inside) := by
  have hAll : PassesOver (splitTagEndAnyQuote? none) opening.attributesText := by
    rw [Opening.attributesText, List.flatMap_def]
    refine .flatten fun piece hPiece => ?_
    obtain ⟨a, ha, rfl⟩ := List.mem_map.mp hPiece
    exact hAttributes a ha
  have hSlash : PassesOver (splitTagEndAnyQuote? none) (if opening.selfClosing then ['/'] else []) := by
    split
    · exact passesOver_unquoted (by decide)
    · exact .nil
  exact (passesOver_unquoted hTag).append (hAll.append ((passesOver_unquotedBlanks hBack).append hSlash))

theorem Opening.Regular.passesOver (h : opening.Regular) :
    PassesOver (splitTagEndAnyQuote? none) (opening.tag ++ opening.inside) :=
  Opening.passesOver (fun c hc => (h.tag c hc).2) (fun a ha => (h.attributes a ha).passesOver) h.back

def canonicalizing (s : Text) : Option (Text × Nat) := do
  let inside ← Text.dropFront? ['<'] s
  let (content, _) ← splitTagEndAnyQuote? none inside
  if content.isEmpty then none
  return (canonicalTag ('<' :: content ++ ['>']), content.length + 1)

theorem canonicalTags_eq : canonicalTags = substitute canonicalizing := rfl

/-- Wherever a tag stands, it is put into canonical form as a whole. -/
theorem Opening.becomes_canonicalTag (hSome : opening.tag ≠ [])
    (h : PassesOver (splitTagEndAnyQuote? none) (opening.tag ++ opening.inside)) :
    Becomes canonicalizing opening.text (canonicalTag opening.text) := by
  have hNotEmpty : (opening.tag ++ opening.inside).isEmpty = false := by simp [hSome]
  refine .of_match fun rest => ?_
  have hText : '<' :: (opening.tag ++ (opening.inside ++ ['>']) ++ rest) =
      ['<'] ++ (opening.tag ++ opening.inside ++ '>' :: rest) := by simp
  have hSplit : splitTagEndAnyQuote? none (opening.tag ++ opening.inside ++ '>' :: rest) =
      some (opening.tag ++ opening.inside, rest) := by
    have hEnd : splitTagEndAnyQuote? none ('>' :: rest) = some ([], rest) := rfl
    simpa using h.split_eq hEnd
  have hTag : '<' :: (opening.tag ++ opening.inside) ++ ['>'] = opening.text := by simp [Opening.text]
  rw [hText, canonicalizing, Text.dropFront?_append]
  simp only [bind, Option.bind_some, hSplit, hNotEmpty, hTag]
  simp [Nat.add_assoc]

/-- A regular tag becomes the tag with canonical attributes. -/
theorem Opening.Regular.becomes_canonical (h : opening.Regular) :
    Becomes canonicalizing opening.text opening.canonical.text := by
  have hSome : opening.tag ≠ [] := by
    obtain ⟨front, c, hTag, -⟩ := h.last
    simp [hTag]
  rw [← h.canonicalTag_text]
  exact Opening.becomes_canonicalTag hSome h.passesOver

end Scan

section Forms

variable {tag blanks : Text} {opening : Opening}

def tidied (value : Text) : Text :=
  singleSpaced (requotedValue value)

theorem IsTagName.regular (h : IsTagName tag) : ∀ c ∈ tag, isBlank c = false ∧ c ∉ ['"', '\'', '>'] := by
  intro c hc
  have hName := h.isTagNameChar c hc
  constructor
  · cases hBlank : isBlank c with
    | false => rfl
    | true => rw [isTagNameChar_of_isBlank hBlank] at hName; cases hName
  · intro hMember
    have hNone : ∀ c ∈ ['"', '\'', '>'], Markup.isTagNameChar c = false := by decide
    rw [hNone c hMember] at hName
    cases hName

theorem IsTagName.last (h : IsTagName tag) : ∃ front c, tag = front ++ [c] ∧ c ≠ '/' := by
  obtain ⟨d, rest, hSome, -⟩ := h.letter
  obtain ⟨front, c, hTag⟩ := (List.eq_nil_or_concat tag).resolve_left (by simp [hSome])
  rw [List.concat_eq_append] at hTag
  refine ⟨front, c, hTag, ?_⟩
  rintro rfl
  exact h.not_mem (c := '/') (by decide) (by simp [hTag])

/-- A well-formed tag is regular if its attributes hold neither angle brackets nor single quotes in their keys. -/
theorem Opening.WellFormed.regular (h : opening.WellFormed)
    (hAttributes : ∀ a ∈ opening.attributes, '\'' ∉ a.key ∧ '<' ∉ a.value ∧ '>' ∉ a.value) : opening.Regular where
  tag := h.tag.regular
  last := h.tag.last
  attributes a ha := ⟨h.attributes a ha, (hAttributes a ha).1, (hAttributes a ha).2⟩
  back := h.back

/-- A closing tag is written like an opening tag with a slash in front of its name. -/
theorem closingTag_eq (tag blanks : Text) : closingTag tag blanks = (Opening.mk ('/' :: tag) [] blanks false).text := by
  simp [closingTag, Opening.text, Opening.inside, Opening.ending, Opening.attributesText]

theorem closingTag_regular (hTag : IsTagName tag) (hBlanks : Blanks blanks) :
    (Opening.mk ('/' :: tag) [] blanks false).Regular := by
  obtain ⟨front, c, rfl, hSlash⟩ := hTag.last
  exact ⟨List.forall_mem_cons.mpr ⟨by decide, hTag.regular⟩, ⟨'/' :: front, c, rfl, hSlash⟩, by simp, hBlanks⟩

/-- A closing tag loses the blanks in it. -/
theorem becomes_canonical_closingTag (hTag : IsTagName tag) (hBlanks : Blanks blanks) :
    Becomes canonicalizing (closingTag tag blanks) (closingTag tag []) := by
  rw [closingTag_eq, closingTag_eq]
  exact (closingTag_regular hTag hBlanks).becomes_canonical

/-- A canonical tag can be read, and no value in it begins another tag. -/
theorem Opening.Regular.canonical_readable (h : opening.Regular) (hTag : IsTagName opening.tag) :
    opening.canonical.Readable ∧ ∀ a ∈ opening.canonical.attributes, '<' ∉ a.value := by
  have hAll : ∀ a ∈ opening.canonical.attributes, a.WellFormed ∧ a.quote = '"' ∧ '<' ∉ a.value := by
    intro a ha
    have hRegular := h.spaced.attributes a ha
    simp only [Opening.canonical, Opening.closedUp, Opening.spaced, Opening.requoted, List.map_map, List.mem_map] at ha
    obtain ⟨b, hb, rfl⟩ := ha
    exact ⟨hRegular.toWellFormed, (WrittenAttribute.requoted_pair (h.attributes b hb).value).1,
      hRegular.angles.1⟩
  exact ⟨⟨⟨hTag, fun a ha => (hAll a ha).1, List.forall_mem_nil _⟩, fun a ha => (hAll a ha).2.1⟩,
    fun a ha => (hAll a ha).2.2⟩

/-- A canonical tag has the attributes it had, with tidied values. -/
theorem Opening.Regular.canonical_pairs (h : opening.Regular) :
    opening.canonical.pairs = opening.pairs.mapValues tidied := by
  simp only [Opening.pairs, Opening.canonical, Opening.closedUp, Opening.spaced, Opening.requoted, List.map_map,
    Attributes.mapValues]
  refine List.map_congr_left fun a ha => ?_
  have hPair := (WrittenAttribute.requoted_pair (h.attributes a ha).value).2
  show (a.requoted.pair.1, singleSpaced a.requoted.pair.2) = (a.key, tidied a.value)
  rw [hPair]
  rfl

end Forms

end IconRegistry.Markup
