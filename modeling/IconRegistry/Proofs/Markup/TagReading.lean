import IconRegistry.Proofs.Markup.Writing
import IconRegistry.Proofs.Text.Splitting

/-! Reading of tags as they are written. An opening tag gives its name and its attributes back, and it is told from the
tags of other names, also of those that begin with its own. -/
namespace IconRegistry.Markup

open Text (isBlank Blanks PassesOver)

def blankCodes : List Nat :=
  [9, 10, 11, 12, 13, 32, 0x85, 0xA0, 0x1680, 0x2000, 0x2001, 0x2002, 0x2003, 0x2004, 0x2005, 0x2006, 0x2007, 0x2008,
    0x2009, 0x200A, 0x2028, 0x2029, 0x202F, 0x205F, 0x3000]

theorem mem_blankCodes {c : Char} (h : isBlank c = true) : c.toNat ∈ blankCodes := by
  have hCases : c.toNat = 32 ∨ (9 ≤ c.toNat ∧ c.toNat ≤ 13) ∨ c.toNat = 0x85 ∨ c.toNat = 0xA0 ∨ c.toNat = 0x1680 ∨
      (0x2000 ≤ c.toNat ∧ c.toNat ≤ 0x200A) ∨ c.toNat = 0x2028 ∨ c.toNat = 0x2029 ∨ c.toNat = 0x202F ∨
      c.toNat = 0x205F ∨ c.toNat = 0x3000 := by
    unfold isBlank at h
    dsimp only at h
    split at h <;> simp only [Bool.or_eq_true, Bool.and_eq_true, beq_iff_eq, decide_eq_true_eq] at h <;> omega
  simp only [blankCodes, List.mem_cons]
  omega

/-- No blank is part of a tag name. -/
theorem isTagNameChar_of_isBlank {c : Char} (h : isBlank c = true) : isTagNameChar c = false := by
  have hCodes : ∀ n ∈ blankCodes, isTagNameChar (Char.ofNat n) = false := by decide +kernel
  have hHere := hCodes _ (mem_blankCodes h)
  rwa [Char.ofNat_toNat] at hHere

theorem isTagNameChar_of_isAlpha {c : Char} (h : c.isAlpha = true) : isTagNameChar c = true := by
  have hAscii : c.toNat < 128 := by
    have hRanges : c.isAlpha = (decide ('A'.val ≤ c.val ∧ c.val ≤ 'Z'.val) ||
        decide ('a'.val ≤ c.val) && decide (c.val ≤ 'z'.val)) := rfl
    rw [hRanges] at h
    simp only [Bool.or_eq_true, Bool.and_eq_true, decide_eq_true_eq, UInt32.le_iff_toNat_le] at h
    have hUpper : 'Z'.val.toNat = 90 := rfl
    have hLower : 'z'.val.toNat = 122 := rfl
    have hCode : c.toNat = c.val.toNat := rfl
    omega
  simp [isTagNameChar, Text.isWordChar, hAscii, Char.isAlphanum, h]

/-- All characters of a tag name are such characters. -/
theorem IsTagName.isTagNameChar {tag : Text} (h : IsTagName tag) : ∀ c ∈ tag, isTagNameChar c = true := by
  obtain ⟨c, rest, rfl, hLetter⟩ := h.letter
  exact List.forall_mem_cons.mpr ⟨isTagNameChar_of_isAlpha hLetter, h.chars⟩

theorem IsTagName.not_mem {tag : Text} (h : IsTagName tag) {c : Char} (hc : Markup.isTagNameChar c = false) :
    c ∉ tag := by
  intro hMember
  rw [h.isTagNameChar c hMember] at hc
  cases hc

theorem ne_of_isAlpha {c d : Char} (h : c.isAlpha = true) (hd : d.isAlpha = false) : c ≠ d := by
  rintro rfl
  rw [h] at hd
  cases hd

section TagEnd

variable {s : Text} {c : Char}

/-- The search for the end of a tag passes over texts without quotes and angle brackets. -/
theorem passesOver_plain (hQuote : '"' ∉ s) (hAngle : '>' ∉ s) : PassesOver splitTagEnd? s := by
  refine .of_forall fun c hc rest => ?_
  have hc₁ : c ≠ '"' := fun h => hQuote (h ▸ hc)
  have hc₂ : c ≠ '>' := fun h => hAngle (h ▸ hc)
  simp [splitTagEnd?, splitTagEndFrom, hc₁, hc₂]

/-- In quotes, the search goes on to the closing one. -/
theorem splitTagEndFrom_quoted {value : Text} (h : '"' ∉ value) (rest : Text) :
    splitTagEndFrom true (value ++ '"' :: rest) =
      (splitTagEnd? rest).map fun parts => (value ++ '"' :: parts.1, parts.2) := by
  induction value with
  | nil => simp [splitTagEndFrom, splitTagEnd?]
  | cons c value ih =>
      obtain ⟨hc, hValue⟩ := List.ne_and_not_mem_of_not_mem_cons h
      rw [List.cons_append, splitTagEndFrom, if_neg (by simp), if_neg (by simpa using hc.symm), ih hValue,
        Option.map_map]
      rfl

theorem passesOver_quoted {value : Text} (h : '"' ∉ value) : PassesOver splitTagEnd? ('"' :: (value ++ ['"'])) := by
  intro rest
  have hText : '"' :: (value ++ ['"']) ++ rest = '"' :: (value ++ '"' :: rest) := by simp
  rw [hText, splitTagEnd?, splitTagEndFrom, if_neg (by decide), if_pos (by decide)]
  rw [show (!false) = true from rfl, splitTagEndFrom_quoted h, Option.map_map]
  simp [Function.comp_def, splitTagEnd?]

theorem not_mem_of_blanks (h : Blanks s) (hc : isBlank c = false) : c ∉ s := by
  intro hMember
  rw [h c hMember] at hc
  cases hc

theorem IsKey.not_mem {key : Text} (h : IsKey key) (hc : isKeyChar c = false) : c ∉ key := by
  intro hMember
  rw [h.chars c hMember] at hc
  cases hc

theorem passesOver_blanks (h : Blanks s) : PassesOver splitTagEnd? s :=
  passesOver_plain (not_mem_of_blanks h (by decide)) (not_mem_of_blanks h (by decide))

/-- The search for the end of a tag passes over an attribute in double quotes. -/
theorem WrittenAttribute.WellFormed.passesOver {a : WrittenAttribute} (h : a.WellFormed) (hQuote : a.quote = '"') :
    PassesOver splitTagEnd? a.text := by
  have hValue := h.value
  rw [hQuote] at hValue
  have hEquals : PassesOver splitTagEnd? ['='] := passesOver_plain (by decide) (by decide)
  have hKey : PassesOver splitTagEnd? a.key := passesOver_plain (h.key.not_mem (by decide)) h.key.angles.2
  have hAll := (passesOver_blanks h.front).append (hKey.append ((passesOver_blanks h.beforeEquals).append
    (hEquals.append ((passesOver_blanks h.afterEquals).append (passesOver_quoted hValue)))))
  simpa [WrittenAttribute.text, hQuote] using hAll

variable {opening : Opening}

theorem Opening.Readable.passesOver_attributesText (h : opening.Readable) :
    PassesOver splitTagEnd? opening.attributesText := by
  rw [Opening.attributesText, List.flatMap_def]
  refine .flatten fun piece hPiece => ?_
  obtain ⟨a, ha, rfl⟩ := List.mem_map.mp hPiece
  exact (h.attributes a ha).passesOver (h.quotes a ha)

/-- In a readable tag, it passes over all that stands behind the name. -/
theorem Opening.Readable.passesOver_inside (h : opening.Readable) : PassesOver splitTagEnd? opening.inside := by
  refine h.passesOver_attributesText.append ((passesOver_blanks h.back).append ?_)
  split
  · exact passesOver_plain (by decide) (by decide)
  · exact .nil

theorem splitTagEnd?_append (h : PassesOver splitTagEnd? s) (rest : Text) :
    splitTagEnd? (s ++ '>' :: rest) = some (s, rest) := by
  have hEnd : splitTagEnd? ('>' :: rest) = some ([], rest) := rfl
  simpa using h.split_eq hEnd

end TagEnd

/-- What may stand behind the name of a tag: nothing, or a slash, or a blank and more. -/
structure EndsName (s : Text) : Prop where
  cases : s = [] ∨ s = ['/'] ∨ ∃ c rest, s = c :: rest ∧ isBlank c = true
  passesOver : PassesOver splitTagEnd? s

theorem endsName_blanks {s : Text} (h : Blanks s) : EndsName s where
  cases := by
    cases s with
    | nil => exact .inl rfl
    | cons c s => exact .inr (.inr ⟨c, s, rfl, h c (by simp)⟩)
  passesOver := passesOver_blanks h

/-- What stands behind the name of a readable tag ends that name. -/
theorem Opening.Readable.endsName {opening : Opening} (h : opening.Readable) : EndsName opening.inside where
  cases := by
    rw [Opening.inside, Opening.attributesText, Opening.ending]
    cases hAttributes : opening.attributes with
    | nil =>
        cases hBack : opening.back with
        | nil => cases opening.selfClosing <;> simp
        | cons c back => exact .inr (.inr ⟨c, _, rfl, h.back c (by simp [hBack])⟩)
    | cons a rest =>
        have ha := h.attributes a (by simp [hAttributes])
        obtain ⟨c, front, hFront⟩ := List.exists_cons_of_ne_nil ha.apart
        have hBlank : isBlank c = true := ha.front c (by simp [hFront])
        rw [List.flatMap_cons, WrittenAttribute.text, hFront]
        exact .inr (.inr ⟨c, _, rfl, hBlank⟩)
  passesOver := h.passesOver_inside

namespace EndsName

variable {s : Text}

/-- Behind the name of a tag, the name does not go on. -/
theorem exists_cons (h : EndsName s) (rest : Text) :
    ∃ d t, s ++ '>' :: rest = d :: t ∧ isTagNameChar d = false := by
  rcases h.cases with rfl | rfl | ⟨c, t, rfl, hc⟩
  · exact ⟨'>', rest, rfl, by decide⟩
  · exact ⟨'/', '>' :: rest, rfl, by decide⟩
  · exact ⟨c, t ++ '>' :: rest, rfl, isTagNameChar_of_isBlank hc⟩

/-- What ends the name of a tag is read up to the end of the tag. -/
theorem afterName?_eq (h : EndsName s) (closing : Bool) (rest : Text) :
    NamedTag.afterName? closing (s ++ '>' :: rest) = some ⟨closing, s, rest⟩ := by
  have hSplit := splitTagEnd?_append h.passesOver rest
  rcases h.cases with rfl | rfl | ⟨c, t, rfl, hc⟩
  · rfl
  · rfl
  · have hNot : c ≠ '>' ∧ c ≠ '/' ∧ c ≠ '"' := by
      refine ⟨?_, ?_, ?_⟩ <;> rintro rfl <;> exact absurd hc (by decide)
    have hStep : splitTagEnd? (c :: (t ++ '>' :: rest)) =
        (splitTagEnd? (t ++ '>' :: rest)).map fun parts => (c :: parts.1, parts.2) := by
      simp [splitTagEnd?, splitTagEndFrom, hNot]
    rw [List.cons_append, hStep, Option.map_eq_some_iff] at hSplit
    obtain ⟨parts, hParts, hSame⟩ := hSplit
    obtain ⟨hInside, hRest⟩ := Prod.mk.inj hSame
    obtain ⟨inside, after⟩ := parts
    obtain rfl : inside = t := (List.cons_eq_cons.mp hInside).2
    obtain rfl : after = rest := hRest
    simp [NamedTag.afterName?, hNot, hc, hParts]

end EndsName

/-- A tag is read by its own name, and by no other name. -/
theorem dropFront?_bind_afterName? {name tag s : Text} (hName : ∀ c ∈ name, isTagNameChar c = true)
    (hTag : ∀ c ∈ tag, isTagNameChar c = true) (h : EndsName s) (closing : Bool) (rest : Text) :
    (Text.dropFront? name (tag ++ (s ++ '>' :: rest))).bind (NamedTag.afterName? closing) =
      if name = tag then some ⟨closing, s, rest⟩ else none := by
  split
  · rename_i hSame
    rw [hSame, Text.dropFront?_append, Option.bind_some, h.afterName?_eq]
  · rename_i hOther
    rw [Option.bind_eq_none_iff]
    intro behind hBehind
    have hParts := Text.eq_append_of_dropFront? hBehind
    rcases List.append_eq_append_iff.mp hParts with ⟨more, rfl, hMore⟩ | ⟨more, rfl, rfl⟩
    · -- the name goes on where the tag's name has ended
      obtain ⟨d, t, hEnd, hd⟩ := h.exists_cons rest
      cases more with
      | nil => simp at hOther
      | cons e more =>
          rw [hEnd, List.cons_append] at hMore
          obtain ⟨rfl, -⟩ := List.cons_eq_cons.mp hMore
          rw [hName d (by simp)] at hd
          cases hd
    · -- the tag's name goes on where the name has ended
      cases more with
      | nil => simp at hOther
      | cons e more =>
          have he := hTag e (by simp)
          have hNot : e ≠ '>' ∧ e ≠ '/' ∧ isBlank e = false := by
            refine ⟨?_, ?_, ?_⟩
            · rintro rfl
              exact absurd he (by decide)
            · rintro rfl
              exact absurd he (by decide)
            · cases hBlank : isBlank e with
              | false => rfl
              | true => rw [isTagNameChar_of_isBlank hBlank] at he; cases he
          simp [NamedTag.afterName?, hNot]

section Read

variable {opening : Opening} {name tag blanks : Text}

theorem Opening.text_append (opening : Opening) (rest : Text) :
    opening.text ++ rest = '<' :: (opening.tag ++ (opening.inside ++ '>' :: rest)) := by
  simp [Opening.text]

theorem closingTag_append (tag blanks rest : Text) :
    closingTag tag blanks ++ rest = '<' :: '/' :: (tag ++ (blanks ++ '>' :: rest)) := by
  simp [closingTag]

/-- An opening tag is read up to its end, whatever its attributes look like. -/
theorem OpenTag.read?_endsName {inside : Text} (hTag : IsTagName tag) (h : EndsName inside) (rest : Text) :
    OpenTag.read? ('<' :: (tag ++ (inside ++ '>' :: rest))) = some ⟨tag, inside, rest⟩ := by
  obtain ⟨c, tail, rfl, hLetter⟩ := hTag.letter
  have hTail : ∀ d ∈ tail, isTagNameChar d = true := hTag.chars
  obtain ⟨d, t, hEnd, hd⟩ := h.exists_cons rest
  have hTake : (tail ++ (inside ++ '>' :: rest)).takeWhile isTagNameChar = tail := by
    rw [List.takeWhile_append_of_pos hTail, hEnd, List.takeWhile_cons_of_neg (by simp [hd]), List.append_nil]
  have hDrop : (tail ++ (inside ++ '>' :: rest)).dropWhile isTagNameChar = inside ++ '>' :: rest := by
    rw [List.dropWhile_append_of_pos hTail, hEnd, List.dropWhile_cons_of_neg (by simp [hd])]
  rw [List.cons_append, OpenTag.read?, if_pos hLetter, hTake, hDrop, splitTagEnd?_append h.passesOver]
  rfl

/-- A readable tag is read as it is written. -/
theorem OpenTag.read?_opening (h : opening.Readable) (rest : Text) :
    OpenTag.read? (opening.text ++ rest) = some ⟨opening.tag, opening.inside, rest⟩ := by
  rw [Opening.text_append, OpenTag.read?_endsName h.tag h.endsName]

/-- A tag that is looked for by name is found exactly if it has that name. -/
theorem NamedTag.read?_endsName {inside : Text} (hName : IsTagName name) (hTag : IsTagName tag) (h : EndsName inside)
    (rest : Text) :
    NamedTag.read? name ('<' :: (tag ++ (inside ++ '>' :: rest))) =
      if name = tag then some ⟨false, inside, rest⟩ else none := by
  obtain ⟨c, tail, hLetters, hLetter⟩ := hTag.letter
  have hSlash : c ≠ '/' := ne_of_isAlpha hLetter (by decide)
  have hRead : NamedTag.read? name ('<' :: (tag ++ (inside ++ '>' :: rest))) =
      (Text.dropFront? name (tag ++ (inside ++ '>' :: rest))).bind (NamedTag.afterName? false) := by
    rw [hLetters, List.cons_append, NamedTag.read?]
    simpa using hSlash
  rw [hRead, dropFront?_bind_afterName? hName.isTagNameChar hTag.isTagNameChar h]

/-- A readable opening tag is found by its name and by no other. -/
theorem NamedTag.read?_opening (hName : IsTagName name) (h : opening.Readable) (rest : Text) :
    NamedTag.read? name (opening.text ++ rest) =
      if name = opening.tag then some ⟨false, opening.inside, rest⟩ else none := by
  rw [Opening.text_append, NamedTag.read?_endsName hName h.tag h.endsName]

theorem NamedTag.read?_closing (hName : IsTagName name) (hTag : IsTagName tag) (hBlanks : Blanks blanks)
    (rest : Text) :
    NamedTag.read? name (closingTag tag blanks ++ rest) = if name = tag then some ⟨true, blanks, rest⟩ else none := by
  rw [closingTag_append, NamedTag.read?,
    dropFront?_bind_afterName? hName.isTagNameChar hTag.isTagNameChar (endsName_blanks hBlanks)]

end Read

section Attributes

variable {s key value : Text}

/-- Blanks do not change the state of a scan that no key and no value is open in. -/
theorem attributesFrom_blanks {scan : AttributeScan}
    (hScan : scan = .outside ∨ (∃ key, scan = .afterKey key) ∨ ∃ key, scan = .afterEquals key) (h : Blanks s)
    (rest : Text) : attributesFrom scan (s ++ rest) = attributesFrom scan rest := by
  induction s with
  | nil => rfl
  | cons c s ih =>
      obtain ⟨hc, hs⟩ := List.forall_mem_cons.mp h
      have hKey : isKeyChar c = false := by simp [isKeyChar, hc]
      rw [List.cons_append, ← ih hs]
      rcases hScan with rfl | ⟨key, rfl⟩ | ⟨key, rfl⟩ <;> simp [attributesFrom, hKey, hc]

/-- A scan collects the characters of a key in reverse. -/
theorem attributesFrom_key (h : ∀ c ∈ s, isKeyChar c = true) (key rest : Text) :
    attributesFrom (.key key) (s ++ rest) = attributesFrom (.key (s.reverse ++ key)) rest := by
  induction s generalizing key with
  | nil => rfl
  | cons c s ih =>
      obtain ⟨hc, hs⟩ := List.forall_mem_cons.mp h
      rw [List.cons_append, attributesFrom, if_pos hc, ih hs]
      simp

/-- A scan collects a value up to its closing quote. -/
theorem attributesFrom_value (h : '"' ∉ s) (key value rest : Text) :
    attributesFrom (.value key value) (s ++ '"' :: rest) =
      (key.reverse, value.reverse ++ s) :: attributesFrom .outside rest := by
  induction s generalizing value with
  | nil => simp [attributesFrom]
  | cons c s ih =>
      obtain ⟨hc, hs⟩ := List.ne_and_not_mem_of_not_mem_cons h
      rw [List.cons_append, attributesFrom, if_neg (by simpa using hc.symm), ih hs]
      simp

/-- Behind a key, blanks may stand in front of the equals sign. -/
theorem attributesFrom_key_equals (h : Blanks s) (key rest : Text) :
    attributesFrom (.key key) (s ++ '=' :: rest) = attributesFrom (.afterEquals key) rest := by
  cases s with
  | nil => rfl
  | cons c s =>
      obtain ⟨hc, hs⟩ := List.forall_mem_cons.mp h
      rw [List.cons_append, attributesFrom, if_neg (by simp [isKeyChar, hc]), if_pos hc,
        attributesFrom_blanks (.inr (.inl ⟨_, rfl⟩)) hs]
      rfl

/-- An attribute is read from its key on. -/
theorem attributesFrom_attribute {front key before after value : Text} (hFront : Blanks front) (hSome : key ≠ [])
    (hKey : ∀ c ∈ key, isKeyChar c = true) (hBefore : Blanks before) (hAfter : Blanks after) (hValue : '"' ∉ value)
    (rest : Text) :
    attributesFrom .outside (front ++ (key ++ (before ++ '=' :: (after ++ '"' :: (value ++ '"' :: rest))))) =
      (key, value) :: attributesFrom .outside rest := by
  obtain ⟨c, chars, rfl⟩ := List.exists_cons_of_ne_nil hSome
  obtain ⟨hc, hChars⟩ := List.forall_mem_cons.mp hKey
  have hFirst : ∀ t, attributesFrom .outside (c :: t) = attributesFrom (.key [c]) t := by
    intro t
    rw [attributesFrom, if_pos hc]
  have hOpen : ∀ k t, attributesFrom (.afterEquals k) ('"' :: t) = attributesFrom (.value k []) t := fun _ _ => rfl
  rw [attributesFrom_blanks (.inl rfl) hFront, List.cons_append, hFirst, attributesFrom_key hChars,
    attributesFrom_key_equals hBefore, attributesFrom_blanks (.inr (.inr ⟨_, rfl⟩)) hAfter, hOpen,
    attributesFrom_value hValue]
  simp

/-- A well-formed attribute is read as its pair. -/
theorem WrittenAttribute.WellFormed.attributesFrom_text {a : WrittenAttribute} (h : a.WellFormed)
    (hQuote : a.quote = '"') (rest : Text) :
    attributesFrom .outside (a.text ++ rest) = a.pair :: attributesFrom .outside rest := by
  have hValue := h.value
  rw [hQuote] at hValue
  have hText : a.text ++ rest =
      a.front ++ (a.key ++ (a.beforeEquals ++ '=' :: (a.afterEquals ++ '"' :: (a.value ++ '"' :: rest)))) := by
    simp [WrittenAttribute.text, hQuote]
  rw [hText, attributesFrom_attribute h.front h.key.nonempty h.key.chars h.beforeEquals h.afterEquals hValue]
  rfl

variable {opening : Opening}

/-- The attributes of a readable tag are read as their pairs. -/
theorem Opening.Readable.attributesIn_append (h : opening.Readable) (hs : Blanks s) :
    attributesIn (opening.attributesText ++ s) = opening.pairs := by
  obtain ⟨tag, attributes, back, selfClosing⟩ := opening
  have hAttributes := h.attributes
  have hQuotes := h.quotes
  clear h
  simp only [Opening.attributesText, Opening.pairs, attributesIn] at *
  induction attributes with
  | nil => simpa [attributesFrom] using attributesFrom_blanks (.inl rfl) hs []
  | cons a rest ih =>
      obtain ⟨ha, hRest⟩ := List.forall_mem_cons.mp hAttributes
      obtain ⟨hQuote, hQuotes⟩ := List.forall_mem_cons.mp hQuotes
      rw [List.flatMap_cons, List.append_assoc, ha.attributesFrom_text hQuote, ih hRest hQuotes, List.map_cons]

/-- The text of attributes ends with a quotation mark. -/
theorem Opening.Readable.attributesText_last (h : opening.Readable) :
    opening.attributesText = [] ∨ ∃ t, opening.attributesText = t ++ ['"'] := by
  rw [Opening.attributesText]
  rcases List.eq_nil_or_concat opening.attributes with hNone | ⟨rest, a, hLast⟩
  · exact .inl (by rw [hNone]; rfl)
  · refine .inr ⟨rest.flatMap WrittenAttribute.text ++ (a.front ++ (a.key ++ (a.beforeEquals ++
      '=' :: (a.afterEquals ++ a.quote :: a.value)))), ?_⟩
    have hQuote := h.quotes a (by simp [hLast])
    simp [hLast, WrittenAttribute.text, hQuote]

theorem Opening.Readable.trimEnd_attributesText (h : opening.Readable) :
    Text.trimEnd opening.attributesText = opening.attributesText := by
  apply Text.trimEnd_eq_self
  rcases h.attributesText_last with hText | ⟨t, hText⟩ <;> rw [hText]
  · simp
  · rintro c hc
    obtain rfl : '"' = c := by simpa using hc
    decide

/-- Trimmed, a readable tag ends with its attributes, or with the slash that closes it. -/
theorem Opening.Readable.trimEnd_inside (h : opening.Readable) :
    Text.trimEnd opening.inside =
      if opening.selfClosing then opening.attributesText ++ (opening.back ++ ['/']) else opening.attributesText := by
  rw [Opening.inside, Opening.ending]
  split
  · rw [← List.append_assoc, Text.trimEnd_append_cons _ _ (by decide)]
    rfl
  · rw [List.append_nil, Text.trimEnd_append_blanks h.back, h.trimEnd_attributesText]

/-- A readable tag closes itself exactly if it is written so. -/
theorem Opening.Readable.closesItself_inside (h : opening.Readable) :
    closesItself opening.inside = opening.selfClosing := by
  rw [closesItself, h.trimEnd_inside]
  cases hClosing : opening.selfClosing with
  | true => simp [List.getLast?_append]
  | false =>
      rcases h.attributesText_last with hText | ⟨t, hText⟩ <;> simp [hText]

/-- The attributes that stand in an opening tag are read as they are. -/
theorem Opening.Readable.attributesIn_inside (h : opening.Readable) :
    attributesIn (withoutSlash opening.inside) = opening.pairs := by
  have hNone : Blanks [] := List.forall_mem_nil _
  have hPairs := h.attributesIn_append hNone
  have hFree : (opening.attributesText.reverse.dropWhile (· == '/')).reverse = opening.attributesText := by
    rcases h.attributesText_last with hText | ⟨t, hText⟩ <;> simp [hText]
  rw [withoutSlash, h.trimEnd_inside]
  split
  · rw [List.reverse_append, List.reverse_append]
    cases hBack : opening.back.reverse with
    | nil => simpa [hFree] using hPairs
    | cons c back =>
        have hMember : c ∈ opening.back := List.mem_reverse.mp (by simp [hBack])
        have hSlash : c ≠ '/' := by
          rintro rfl
          exact absurd (h.back _ hMember) (by decide)
        have hKept : ((['/'].reverse ++ c :: back) ++ opening.attributesText.reverse).dropWhile (· == '/') =
            (c :: back) ++ opening.attributesText.reverse := by
          simp [hSlash]
        rw [hKept, List.reverse_append, List.reverse_reverse, ← hBack, List.reverse_reverse]
        exact h.attributesIn_append h.back
  · rw [hFree, ← List.append_nil opening.attributesText, hPairs]

end Attributes

end IconRegistry.Markup
