import IconRegistry.Proofs.Markup.CanonicalTag
import IconRegistry.Proofs.Markup.RootTag

/-! What canonicalization keeps of the attributes of a tag whose values may hold any character but their own quotation
mark. The spaces in front of the end of a tag are dropped inside of values, too. -/
namespace IconRegistry.Markup

open Text (isBlank Becomes Blanks PassesOver replaceAll replacing singleSpaced substitute)

/-- Attributes as XML has them, with blanks in front of them. -/
structure WrittenAttribute.IsXml (a : WrittenAttribute) : Prop where
  apart : a.front ≠ []
  front : Blanks a.front
  key : IsXmlName a.key
  beforeEquals : Blanks a.beforeEquals
  afterEquals : Blanks a.afterEquals
  quote : a.quote = '"' ∨ a.quote = '\''
  value : a.quote ∉ a.value

/-- Opening tags as XML has them. -/
structure Opening.IsXml (opening : Opening) : Prop where
  tag : IsXmlName opening.tag
  attributes : ∀ a ∈ opening.attributes, a.IsXml
  back : Blanks opening.back

instance (a : WrittenAttribute) : Decidable a.IsXml :=
  decidable_of_iff (a.front ≠ [] ∧ Blanks a.front ∧ IsXmlName a.key ∧ Blanks a.beforeEquals ∧ Blanks a.afterEquals ∧
      (a.quote = '"' ∨ a.quote = '\'') ∧ a.quote ∉ a.value)
    ⟨fun ⟨hApart, hFront, hKey, hBefore, hAfter, hQuote, hValue⟩ => ⟨hApart, hFront, hKey, hBefore, hAfter, hQuote, hValue⟩,
      fun h => ⟨h.apart, h.front, h.key, h.beforeEquals, h.afterEquals, h.quote, h.value⟩⟩

instance (opening : Opening) : Decidable opening.IsXml :=
  decidable_of_iff (IsXmlName opening.tag ∧ (∀ a ∈ opening.attributes, a.IsXml) ∧ Blanks opening.back)
    ⟨fun ⟨hTag, hAttributes, hBack⟩ => ⟨hTag, hAttributes, hBack⟩, fun h => ⟨h.tag, h.attributes, h.back⟩⟩

/-- A text without the spaces that may stand in front of the end of a tag. -/
def squeezed (s : Text) : Text :=
  replaceAll " >".toList ">".toList (replaceAll " />".toList "/>".toList s)

def WrittenAttribute.kept (a : WrittenAttribute) : WrittenAttribute :=
  { a.requoted.spaced with value := squeezed (tidied a.value) }

section Squeezing

variable {s : Text}

/-- A replacement by something shorter makes no text longer. -/
theorem length_replaceAll_le {needle replacement : Text} (hShorter : replacement.length < needle.length) (s : Text) :
    (replaceAll needle replacement s).length ≤ s.length := by
  by_cases h : needle <:+: s
  · exact Nat.le_of_lt (Text.length_replaceAll_lt hShorter h)
  · exact Nat.le_of_eq (by rw [Text.replaceAll_of_not_infix replacement h])

/-- A text stays as it is if no end of a tag stands behind a space in it. -/
theorem squeezed_eq_self_iff : squeezed s = s ↔ ¬" >".toList <:+: s ∧ ¬" />".toList <:+: s := by
  constructor
  · intro h
    have hSlash : ¬" />".toList <:+: s := by
      intro hInfix
      have hLess := Text.length_replaceAll_lt (by decide : "/>".toList.length < " />".toList.length) hInfix
      have hAgain := length_replaceAll_le (by decide : ">".toList.length < " >".toList.length)
        (replaceAll " />".toList "/>".toList s)
      have hSame := congrArg List.length h
      rw [squeezed] at hSame
      omega
    rw [squeezed, Text.replaceAll_of_not_infix _ hSlash] at h
    refine ⟨fun hInfix => ?_, hSlash⟩
    have hLess := Text.length_replaceAll_lt (by decide : ">".toList.length < " >".toList.length) hInfix
    rw [h] at hLess
    exact Nat.lt_irrefl _ hLess
  · rintro ⟨hAngle, hSlash⟩
    rw [squeezed, Text.replaceAll_of_not_infix _ hSlash, Text.replaceAll_of_not_infix _ hAngle]

/-- Squeezing brings in no characters but those of a tag's end. -/
theorem mem_squeezed {c : Char} (h : c ∈ squeezed s) : c ∈ s ∨ c = '/' ∨ c = '>' := by
  rcases Text.mem_replaceAll h with h | h
  · rcases Text.mem_replaceAll h with h | h
    · exact .inl h
    · simpa using Or.inr h
  · exact .inr (.inr (by simpa using h))

end Squeezing

/-- Whether a scan for attributes is in front of an equals sign. -/
def AttributeScan.Open : AttributeScan → Prop
  | .outside | .key _ | .afterKey _ => True
  | .afterEquals _ | .value _ _ => False

section Lead

variable {scan : AttributeScan} {s : Text}

theorem AttributeScan.Open.ite {p : Prop} [Decidable p] {first second : AttributeScan} (h : first.Open)
    (h' : second.Open) : (if p then first else second).Open := by
  split
  · exact h
  · exact h'

/-- Away from an equals sign, a scan that is open stays open. -/
theorem AttributeScan.Open.step (h : scan.Open) {c : Char} (hc : c ≠ '=') :
    ∃ next : AttributeScan, next.Open ∧ ∀ rest, attributesFrom scan (c :: rest) = attributesFrom next rest := by
  cases scan with
  | outside => exact ⟨if isKeyChar c then .key [c] else .outside, .ite trivial trivial, fun _ => rfl⟩
  | key k =>
      exact ⟨if isKeyChar c then .key (c :: k) else if isBlank c then .afterKey k else .outside,
        .ite trivial (.ite trivial trivial), fun rest => by simp [attributesFrom, hc]⟩
  | afterKey k =>
      exact ⟨if isKeyChar c then .key [c] else if isBlank c then .afterKey k else .outside,
        .ite trivial (.ite trivial trivial), fun rest => by simp [attributesFrom, hc]⟩
  | afterEquals k | value k v => cases h

theorem AttributeScan.Open.run (h : scan.Open) (hs : '=' ∉ s) :
    ∃ next : AttributeScan, next.Open ∧ ∀ rest, attributesFrom scan (s ++ rest) = attributesFrom next rest := by
  induction s generalizing scan with
  | nil => exact ⟨scan, h, fun _ => rfl⟩
  | cons c s ih =>
      obtain ⟨hc, hs⟩ := List.ne_and_not_mem_of_not_mem_cons hs
      obtain ⟨middle, hMiddle, hStep⟩ := h.step hc.symm
      obtain ⟨next, hNext, hRun⟩ := ih hMiddle hs
      exact ⟨next, hNext, fun rest => by rw [List.cons_append, hStep, hRun]⟩

/-- Without an equals sign there are no attributes. -/
theorem attributesIn_of_not_mem (hs : '=' ∉ s) : attributesIn s = [] := by
  have hOutside : AttributeScan.outside.Open := trivial
  obtain ⟨next, -, hRun⟩ := hOutside.run hs
  have hAll := hRun []
  rw [List.append_nil] at hAll
  rw [attributesIn, hAll]
  cases next <;> rfl

/-- Behind a blank, a key begins anew. -/
theorem attributesFrom_lead {b k : Char} (hs : '=' ∉ s) (hb : isBlank b = true) (hk : isKeyChar k = true) (rest : Text) :
    attributesFrom .outside (s ++ b :: k :: rest) = attributesFrom .outside (k :: rest) := by
  have hOutside : AttributeScan.outside.Open := trivial
  have hKey : isKeyChar b = false := by simp [isKeyChar, hb]
  obtain ⟨next, hNext, hRun⟩ := hOutside.run hs
  rw [hRun]
  cases next with
  | outside | key | afterKey => simp [attributesFrom, hKey, hk, hb]
  | afterEquals | value => cases hNext

end Lead

section Led

variable {a : WrittenAttribute} {attributes : List WrittenAttribute}

theorem WrittenAttribute.Led.isKeyChar (h : a.Led) : ∀ c ∈ a.key, isKeyChar c = true := by
  intro c hc
  have hRequoted := h.key c hc
  simp only [isRequotedKeyChar, Bool.and_eq_true] at hRequoted
  exact hRequoted.1.1

/-- An attribute behind a blank stays behind one with new quotes. -/
theorem WrittenAttribute.Led.requoted (h : a.Led) : a.requoted.Led := by
  rw [WrittenAttribute.requoted]
  split
  · exact h
  · have hQuote : '"' ∉ requotedValue a.value := fun hMember =>
      (mem_requotedValue hMember).elim (fun h => h.2 rfl) (by decide)
    exact ⟨h.front, h.apart, h.nonempty, h.key, List.forall_mem_nil _, List.forall_mem_nil _, .inl rfl, hQuote⟩

theorem WrittenAttribute.Led.spaced (h : a.Led) : a.spaced.Led where
  front c hc := by
    rcases Text.mem_singleSpaced hc with hc | rfl
    · exact h.front c hc
    · decide
  apart := by
    obtain ⟨lead, b, hFront, hb⟩ := h.apart
    obtain ⟨t, hSpaced⟩ := Text.singleSpaced_concat hb lead
    exact ⟨t, ' ', by rw [WrittenAttribute.spaced, hFront, hSpaced], by decide⟩
  nonempty := h.nonempty
  key := h.key
  beforeEquals := Text.blanks_singleSpaced h.beforeEquals
  afterEquals := Text.blanks_singleSpaced h.afterEquals
  quote := h.quote
  value hMember := by
    have hQuote : a.quote ≠ ' ' := by rcases h.quote with hq | hq <;> rw [hq] <;> decide
    exact (Text.mem_singleSpaced hMember).elim h.value hQuote

/-- A value gets another one that may have the end of a tag in it. -/
theorem WrittenAttribute.Led.withValue (h : a.Led) {value : Text} (hValue : a.quote ∉ value) :
    ({ a with value } : WrittenAttribute).Led :=
  ⟨h.front, h.apart, h.nonempty, h.key, h.beforeEquals, h.afterEquals, h.quote, hValue⟩

/-- In a canonical tag, an attribute is kept with double quotes and a squeezed value. -/
theorem WrittenAttribute.Led.kept (h : a.Led) :
    a.kept.Led ∧ a.kept.quote = '"' ∧ a.kept.pair = (a.key, squeezed (tidied a.value)) := by
  obtain ⟨hQuote, hPair⟩ := WrittenAttribute.requoted_pair h.value
  have hSpaced := h.requoted.spaced
  have hQuoted : a.requoted.spaced.quote = '"' := hQuote
  have hValue : a.requoted.spaced.value = tidied a.value := congrArg (fun pair : Text × Text => singleSpaced pair.2) hPair
  have hKey : a.requoted.spaced.key = a.key := congrArg (·.1) hPair
  refine ⟨hSpaced.withValue ?_, hQuoted, by rw [← hKey]; rfl⟩
  have hFree := hSpaced.value
  rw [hQuoted, hValue] at *
  intro hMember
  rcases mem_squeezed hMember with hMember | hSame | hSame
  · exact hFree hMember
  · cases hSame
  · cases hSame

/-- Only values hold what the replacement of an end of a tag may find. -/
theorem WrittenAttribute.Led.becomes_replacing (h : a.Led) (hQuote : a.quote = '"') {needle : Text} (replacement : Text)
    (hAngle : '>' ∈ needle) (hFree : '"' ∉ needle) :
    Becomes (replacing needle replacement) a.text
      ({ a with value := replaceAll needle replacement a.value } : WrittenAttribute).text := by
  have hSome : needle ≠ [] := List.ne_nil_of_mem hAngle
  have hNone : ¬needle <:+: a.front ++ (a.key ++ (a.beforeEquals ++ '=' :: a.afterEquals)) := by
    intro hInfix
    have hBefore := not_mem_of_blanks (c := '>') h.beforeEquals (by decide)
    have hAfter := not_mem_of_blanks (c := '>') h.afterEquals (by decide)
    have hFront : '>' ∉ a.front := fun hMember => h.front '>' hMember (by decide)
    have hKey : '>' ∉ a.key := fun hMember => absurd (h.key '>' hMember) (by decide)
    have hMember := hInfix.subset hAngle
    simp [hFront, hKey, hBefore, hAfter] at hMember
  have hLead := Text.becomes_replacing_concat (c := '"') replacement hSome hFree
    (a.front ++ (a.key ++ (a.beforeEquals ++ '=' :: a.afterEquals)))
  rw [Text.replaceAll_of_not_infix replacement hNone] at hLead
  have hAll := hLead.append (Text.becomes_replacing_concat (c := '"') replacement hSome hFree a.value)
  simpa [WrittenAttribute.text, hQuote] using hAll

/-- An attribute in double quotes is read as its pair, and the reading goes on behind it. -/
theorem WrittenAttribute.Led.attributesFrom_text (h : a.Led) (hQuote : a.quote = '"') (rest : Text) :
    attributesFrom .outside (a.text ++ rest) = a.pair :: attributesFrom .outside rest := by
  obtain ⟨lead, b, hFront, hb⟩ := h.apart
  obtain ⟨k, key, hKey⟩ := List.exists_cons_of_ne_nil h.nonempty
  have hChars := h.isKeyChar
  have hLead : '=' ∉ lead := fun hMember => h.front '=' (by simp [hFront, hMember]) (by simp)
  have hRead := attributesFrom_attribute (List.forall_mem_nil _ : Blanks []) h.nonempty hChars h.beforeEquals
    h.afterEquals (hQuote ▸ h.value) rest
  have hText : a.text ++ rest = lead ++ b :: k :: (key ++ (a.beforeEquals ++ '=' :: (a.afterEquals ++
      '"' :: (a.value ++ '"' :: rest)))) := by
    simp [WrittenAttribute.text, hFront, hQuote, hKey]
  rw [hText, attributesFrom_lead hLead hb (hChars k (by simp [hKey]))]
  simpa [hKey, WrittenAttribute.pair] using hRead

/-- A replacement that needs the end of a tag reaches into values only. -/
theorem replaceAll_attributes (h : ∀ a ∈ attributes, a.Led ∧ a.quote = '"') {needle : Text} (replacement : Text)
    (hAngle : '>' ∈ needle) (hFree : '"' ∉ needle) (ending : Text) :
    replaceAll needle replacement (attributes.flatMap WrittenAttribute.text ++ ending) =
      (attributes.map fun a => { a with value := replaceAll needle replacement a.value }).flatMap WrittenAttribute.text ++
        replaceAll needle replacement ending := by
  have hAll := Becomes.flatMap fun a ha => (h a ha).1.becomes_replacing (h a ha).2 replacement hAngle hFree
  rw [List.flatMap_map]
  exact hAll ending

/-- The spaces that canonicalization drops are in values and in front of the end of the tag. -/
theorem squeezed_attributes (h : ∀ a ∈ attributes, a.Led ∧ a.quote = '"') {back : Text}
    (hBack : back = [] ∨ back = [' ']) (slash : Bool) :
    squeezed (attributes.flatMap WrittenAttribute.text ++ (back ++ ((if slash then ['/'] else []) ++ ['>']))) =
      (attributes.map fun a => { a with value := squeezed a.value }).flatMap WrittenAttribute.text ++
        ((if slash then ['/'] else []) ++ ['>']) := by
  have hFirst : ∀ a ∈ attributes.map fun a => { a with value := replaceAll " />".toList "/>".toList a.value },
      a.Led ∧ a.quote = '"' := by
    intro a ha
    obtain ⟨b, hb, rfl⟩ := List.mem_map.mp ha
    obtain ⟨hLed, hQuote⟩ := h b hb
    refine ⟨hLed.withValue fun hMember => ?_, hQuote⟩
    rw [hQuote] at hMember
    exact (Text.mem_replaceAll hMember).elim (hQuote ▸ hLed.value) (by decide)
  have hEnd : squeezed (back ++ ((if slash then ['/'] else []) ++ ['>'])) = (if slash then ['/'] else []) ++ ['>'] := by
    rcases hBack with rfl | rfl <;> cases slash <;> decide
  rw [squeezed, replaceAll_attributes h _ (by decide) (by decide),
    replaceAll_attributes hFirst _ (by decide) (by decide), List.map_map, ← squeezed, hEnd]
  rfl

/-- Canonicalization goes attribute by attribute. -/
theorem canonicalTag_attributes (h : ∀ a ∈ attributes, a.Led) {back : Text} (hBack : Blanks back) (slash : Bool) :
    canonicalTag (attributes.flatMap WrittenAttribute.text ++ (back ++ ((if slash then ['/'] else []) ++ ['>']))) =
      (attributes.map WrittenAttribute.kept).flatMap WrittenAttribute.text ++ ((if slash then ['/'] else []) ++ ['>']) := by
  have hRequoted : ∀ a ∈ attributes.map WrittenAttribute.requoted, a.Led ∧ a.quote = '"' := by
    intro a ha
    obtain ⟨b, hb, rfl⟩ := List.mem_map.mp ha
    exact ⟨(h b hb).requoted, (WrittenAttribute.requoted_pair (h b hb).value).1⟩
  have hSpaced : ∀ a ∈ (attributes.map WrittenAttribute.requoted).map WrittenAttribute.spaced, a.Led ∧ a.quote = '"' := by
    intro a ha
    obtain ⟨b, hb, rfl⟩ := List.mem_map.mp ha
    exact ⟨(hRequoted b hb).1.spaced, (hRequoted b hb).2⟩
  have hSpacing : ∀ a ∈ attributes.map WrittenAttribute.requoted, ∀ rest,
      singleSpaced (a.text ++ rest) = a.spaced.text ++ singleSpaced rest := fun a ha =>
    WrittenAttribute.singleSpaced_text (hRequoted a ha).1.nonempty
      (fun c hc => isBlank_of_isKeyChar ((hRequoted a ha).1.isKeyChar c hc)) (hRequoted a ha).1.quote
  have hFirst : substitute requotedAttribute?
      (attributes.flatMap WrittenAttribute.text ++ (back ++ ((if slash then ['/'] else []) ++ ['>']))) =
      (attributes.map WrittenAttribute.requoted).flatMap WrittenAttribute.text ++
        (back ++ ((if slash then ['/'] else []) ++ ['>'])) := by
    rw [List.flatMap_map]
    exact ((Becomes.flatMap fun a ha => (h a ha).becomes_requoted).append
      (Opening.becomes_requoting_end hBack slash)).substitute_eq
  rw [canonicalTag, hFirst, collapseBlanks_eq, Opening.singleSpaced_attributes hSpacing, Opening.singleSpaced_end,
    ← squeezed, squeezed_attributes hSpaced (Text.singleSpaced_eq_or hBack), List.map_map, List.map_map]
  congr 2
  refine List.map_congr_left fun a ha => ?_
  have hValue : a.requoted.spaced.value = tidied a.value :=
    congrArg (fun pair : Text × Text => singleSpaced pair.2) (WrittenAttribute.requoted_pair (h a ha).value).2
  rw [Function.comp_apply, Function.comp_apply, hValue, WrittenAttribute.kept]

/-- The attributes of a tag are read as their pairs. -/
theorem attributesIn_attributes (h : ∀ a ∈ attributes, a.Led ∧ a.quote = '"') (slash : Bool) :
    attributesIn (attributes.flatMap WrittenAttribute.text ++ ((if slash then ['/'] else []) ++ ['>'])) =
      attributes.map WrittenAttribute.pair := by
  rw [attributesIn]
  induction attributes with
  | nil => cases slash <;> rfl
  | cons a rest ih =>
      obtain ⟨⟨hLed, hQuote⟩, hRest⟩ := List.forall_mem_cons.mp h
      rw [List.flatMap_cons, List.append_assoc, hLed.attributesFrom_text hQuote, ih hRest, List.map_cons]

end Led

/-- The attributes of a tag, the first with the name of the tag in front of it. -/
def Opening.led (opening : Opening) : List WrittenAttribute :=
  match opening.attributes with
  | [] => []
  | a :: rest => { a with front := '<' :: (opening.tag ++ a.front) } :: rest

section Opening

variable {name : Text} {opening : Opening}

theorem IsXmlName.nonempty (h : IsXmlName name) : name ≠ [] := by
  rintro rfl
  exact absurd h.start (by decide)

/-- Names have no characters that tags are written with. -/
theorem IsXmlName.not_mem (h : IsXmlName name) {c : Char} (hc : isXmlNameChar c = false) : c ∉ name := by
  intro hMember
  rw [h.chars c hMember] at hc
  cases hc

theorem IsXmlName.unquoted (h : IsXmlName name) : ∀ c ∈ name, c ∉ ['=', '"', '\'', '>'] := by
  intro c hc hMember
  have hNone : ∀ c ∈ ['=', '"', '\'', '>'], isXmlNameChar c = false := by decide
  exact h.not_mem (hNone c hMember) hc

/-- An XML name that is no key has a blank in it: there is one that names may have. -/
theorem IsXmlName.isRequotedKeyChar (h : IsXmlName name) (hBlanks : ∀ c ∈ name, isBlank c = false) :
    ∀ c ∈ name, isRequotedKeyChar c = true := by
  intro c hc
  have hOther : c ≠ '=' ∧ c ≠ '"' ∧ c ≠ '\'' ∧ c ≠ '>' := by simpa using h.unquoted c hc
  have hSlash : c ≠ '/' := fun hSame => h.not_mem (by decide : isXmlNameChar '/' = false) (hSame ▸ hc)
  simp [Markup.isRequotedKeyChar, isKeyChar, hBlanks c hc, hOther, hSlash]

/-- A tag with attributes is its attributes, the first one led by the name of the tag, and its end. -/
theorem Opening.text_eq_led (h : opening.attributes ≠ []) :
    opening.text = opening.led.flatMap WrittenAttribute.text ++
      (opening.back ++ ((if opening.selfClosing then ['/'] else []) ++ ['>'])) := by
  obtain ⟨a, rest, hAttributes⟩ := List.exists_cons_of_ne_nil h
  simp [Opening.text_eq, Opening.led, hAttributes, WrittenAttribute.text]

/-- Led by the name of the tag, attributes have the pairs they had. -/
theorem Opening.led_pairs (opening : Opening) : opening.led.map WrittenAttribute.pair = opening.pairs := by
  rw [Opening.led, Opening.pairs]
  split
  · rename_i hNone
    rw [hNone]
  · rename_i a rest hSome
    rw [hSome]
    rfl

/-- An attribute of a document stands behind a blank, and so it is found. -/
theorem WrittenAttribute.IsXml.led {a : WrittenAttribute} (h : a.IsXml) (hKey : ∀ c ∈ a.key, isBlank c = false) :
    a.Led where
  front c hc := not_mem_of_blank (h.front c hc)
  apart := exists_last_blank h.apart h.front
  nonempty := h.key.nonempty
  key := h.key.isRequotedKeyChar hKey
  beforeEquals := h.beforeEquals
  afterEquals := h.afterEquals
  quote := h.quote
  value := h.value

theorem Opening.IsXml.led (h : opening.IsXml) (hKeys : ∀ a ∈ opening.attributes, ∀ c ∈ a.key, isBlank c = false) :
    ∀ a ∈ opening.led, a.Led := by
  have hAll : ∀ a ∈ opening.attributes, a.Led := fun a ha => (h.attributes a ha).led (hKeys a ha)
  rw [Opening.led]
  split
  · simp
  · rename_i a rest hAttributes
    obtain ⟨ha, hRest⟩ := List.forall_mem_cons.mp (hAttributes ▸ hAll)
    obtain ⟨lead, b, hFront, hb⟩ := ha.apart
    refine List.forall_mem_cons.mpr ⟨{ ha with front := ?_, apart := ?_ }, hRest⟩
    · refine List.forall_mem_cons.mpr ⟨by decide, List.forall_mem_append.mpr ⟨h.tag.unquoted, ha.front⟩⟩
    · exact ⟨'<' :: (opening.tag ++ lead), b, by simp [hFront], hb⟩

/-- Nothing is requoted where there is no equals sign. -/
theorem requotedAttribute?_of_not_mem {s : Text} (h : '=' ∉ s) : requotedAttribute? s = none := by
  cases s with
  | nil => rfl
  | cons c s =>
      obtain ⟨-, hs⟩ := List.ne_and_not_mem_of_not_mem_cons h
      have hNone : ∀ t, t <:+ s → Text.dropFront? ['='] t = none := by
        intro t hSuffix
        cases t with
        | nil => rfl
        | cons d t =>
            have hd : '=' ≠ d := fun hSame => hs (hSuffix.subset (hSame ▸ List.mem_cons_self))
            simp [Text.dropFront?, hd]
      have hBehind := hNone _ ((Text.trimStart_suffix _).trans (List.drop_suffix (s.takeWhile isRequotedKeyChar).length s))
      simp only [requotedAttribute?, hBehind]
      split <;> rfl

/-- Canonical tags bring in no equals sign. -/
theorem equals_not_mem_canonicalTag {tag : Text} (h : '=' ∉ tag) : '=' ∉ canonicalTag tag := by
  have hNone : ∀ u, u ≠ [] → u <:+ tag → requotedAttribute? (u ++ []) = none := by
    intro u _ hSuffix
    rw [List.append_nil]
    exact requotedAttribute?_of_not_mem fun hMember => h (hSuffix.subset hMember)
  have hSame : substitute requotedAttribute? tag = tag := by
    simpa using Text.substitute_append_of_none hNone
  rw [canonicalTag, hSame, collapseBlanks_eq, ← squeezed]
  intro hMember
  rcases mem_squeezed hMember with hMember | hOther | hOther
  · exact (Text.mem_singleSpaced hMember).elim h (by decide)
  · cases hOther
  · cases hOther

/-- Where no key has a blank in it, canonicalization keeps the attributes, but for the spaces in their values. -/
theorem Opening.IsXml.attributesIn_canonicalTag (h : opening.IsXml)
    (hKeys : ∀ a ∈ opening.attributes, ∀ c ∈ a.key, isBlank c = false) :
    attributesIn (canonicalTag opening.text) = opening.pairs.mapValues fun value => squeezed (tidied value) := by
  by_cases hNone : opening.attributes = []
  · have hTag : '=' ∉ opening.tag := h.tag.not_mem (by decide)
    have hBack : '=' ∉ opening.back := not_mem_of_blanks h.back (by decide)
    have hText : '=' ∉ opening.text := by
      cases hClosing : opening.selfClosing <;> simp [Opening.text_eq, hNone, hTag, hBack, hClosing]
    rw [attributesIn_of_not_mem (equals_not_mem_canonicalTag hText), Opening.pairs, hNone]
    rfl
  · have hLed := h.led hKeys
    have hKept : ∀ a ∈ opening.led.map WrittenAttribute.kept, a.Led ∧ a.quote = '"' := by
      intro a ha
      obtain ⟨b, hb, rfl⟩ := List.mem_map.mp ha
      exact ⟨(hLed b hb).kept.1, (hLed b hb).kept.2.1⟩
    rw [Opening.text_eq_led hNone, canonicalTag_attributes hLed h.back, attributesIn_attributes hKept,
      ← opening.led_pairs, Attributes.mapValues, List.map_map, List.map_map]
    exact List.map_congr_left fun a ha => (hLed a ha).kept.2.2

/-- Wherever a tag stands, canonicalization puts it into canonical form as a whole. It keeps all attributes, in their
order and with their values tidied, exactly if no key has a blank in it and no value has the end of a tag behind a
space. -/
theorem canonicalTag_keeps_attributes_iff (h : opening.IsXml) :
    (∀ rest, canonicalTags (opening.text ++ rest) = canonicalTag opening.text ++ canonicalTags rest) ∧
      (attributesIn (canonicalTag opening.text) = opening.pairs.mapValues tidied ↔
        ∀ a ∈ opening.attributes, (∀ c ∈ a.key, isBlank c = false) ∧ ¬" >".toList <:+: tidied a.value ∧
          ¬" />".toList <:+: tidied a.value) := by
  constructor
  · have hAttributes : ∀ a ∈ opening.attributes, PassesOver (splitTagEndAnyQuote? none) a.text := by
      intro a ha
      obtain ⟨-, hFront, hKey, hBefore, hAfter, hQuote, hValue⟩ := h.attributes a ha
      exact WrittenAttribute.passesOver
        (fun c hc => List.not_mem_of_not_mem_cons (not_mem_of_blank (hFront c hc)))
        (fun c hc => List.not_mem_of_not_mem_cons (hKey.unquoted c hc)) hBefore hAfter hQuote hValue
    have hTag : ∀ c ∈ opening.tag, c ∉ ['"', '\'', '>'] := fun c hc =>
      List.not_mem_of_not_mem_cons (h.tag.unquoted c hc)
    exact Opening.becomes_canonicalTag h.tag.nonempty (Opening.passesOver hTag hAttributes h.back)
  · constructor
    · intro hSame
      have hKeys : ∀ a ∈ opening.attributes, ∀ c ∈ a.key, isBlank c = false := by
        intro a ha c hc
        have hKeyed := keyed_attributesIn (canonicalTag opening.text)
        rw [hSame] at hKeyed
        have hPair : (a.key, tidied a.value) ∈ opening.pairs.mapValues tidied :=
          List.mem_map.mpr ⟨a.pair, List.mem_map_of_mem ha, rfl⟩
        exact isBlank_of_isKeyChar ((hKeyed _ hPair).2 c hc)
      rw [h.attributesIn_canonicalTag hKeys] at hSame
      intro a ha
      have hPair := List.map_inj_left.mp hSame a.pair (List.mem_map_of_mem ha)
      exact ⟨hKeys a ha, squeezed_eq_self_iff.mp (congrArg Prod.snd hPair)⟩
    · intro hAll
      rw [h.attributesIn_canonicalTag fun a ha => (hAll a ha).1]
      refine List.map_congr_left fun pair hPair => ?_
      obtain ⟨a, ha, rfl⟩ := List.mem_map.mp hPair
      exact congrArg (Prod.mk a.key) (squeezed_eq_self_iff.mpr (hAll a ha).2)

/-- Values look like the end of a tag and like another attribute. -/
theorem canonicalTag_keeps_attributes_of_icon :
    let opening := Opening.mk "é:svg".toList
      [⟨"\n  ".toList, "viewBox".toList, " ".toList, [], '\'', "0 0\n24  24".toList⟩,
        ⟨" ".toList, "data-a".toList, [], " ".toList, '"', "b='c'/><d>".toList⟩] " ".toList true
    opening.IsXml ∧
      (∀ rest, canonicalTags (opening.text ++ rest) = canonicalTag opening.text ++ canonicalTags rest) ∧
      (attributesIn (canonicalTag opening.text) = opening.pairs.mapValues tidied ↔
        ∀ a ∈ opening.attributes, (∀ c ∈ a.key, isBlank c = false) ∧ ¬" >".toList <:+: tidied a.value ∧
          ¬" />".toList <:+: tidied a.value) ∧
      attributesIn (canonicalTag opening.text) =
        [("viewBox".toList, "0 0 24 24".toList), ("data-a".toList, "b='c'/><d>".toList)] := by
  intro opening
  have hXml : opening.IsXml := by decide +kernel
  obtain ⟨hText, hIff⟩ := canonicalTag_keeps_attributes_iff hXml
  exact ⟨hXml, hText, hIff, by decide +kernel⟩

/-- A space in front of a `>` is dropped although it stands in a value, and a key with a blank in it is taken apart. -/
theorem canonicalTag_loses_attributes :
    let squeezing := Opening.mk "svg".toList [⟨" ".toList, "a".toList, [], [], '"', "x >y".toList⟩] [] true
    let cutting := Opening.mk "svg".toList [⟨" ".toList, "a\u1680b".toList, [], [], '"', "1".toList⟩] [] true
    squeezing.IsXml ∧ squeezing.text = "<svg a=\"x >y\"/>".toList ∧
      squeezing.pairs.mapValues tidied = [("a".toList, "x >y".toList)] ∧
      attributesIn (canonicalTag squeezing.text) = [("a".toList, "x>y".toList)] ∧
      cutting.IsXml ∧ attributesIn (canonicalTag cutting.text) = [("b".toList, "1".toList)] := by
  decide +kernel

end Opening

end IconRegistry.Markup
