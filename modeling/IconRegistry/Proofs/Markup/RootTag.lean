import IconRegistry.Component.Annotated
import IconRegistry.Proofs.Markup.Entity
import IconRegistry.Proofs.Markup.Every
import IconRegistry.Proofs.Markup.Mapping
import IconRegistry.Proofs.Markup.Reading

/-! The opening tag of a root as it stands in a text, also where its attributes are no attributes. What is between the
tag's name and its end is all that is known of it. -/
namespace IconRegistry.Markup

open Component (rootTag? withAttributes writtenAttributes)
open Text (isBlank Blanks PassesOver)

section TagEnd

variable {s t inside after : Text} {quoted : Bool}

/-- The search for the end of a tag passes over what it found in front of that end. -/
theorem splitTagEndFrom_eq_some (h : splitTagEndFrom quoted s = some (inside, after)) :
    s = inside ++ '>' :: after ∧ ∀ rest, splitTagEndFrom quoted (inside ++ rest) =
      (splitTagEnd? rest).map fun parts => (inside ++ parts.1, parts.2) := by
  induction s generalizing quoted inside with
  | nil => cases h
  | cons c s ih =>
      rw [splitTagEndFrom] at h
      split at h
      · rename_i hEnd
        obtain ⟨rfl, rfl⟩ := Prod.mk.inj (Option.some.inj h)
        obtain ⟨hHere, hOpen⟩ : c = '>' ∧ quoted = false := by simpa using hEnd
        subst hHere hOpen
        exact ⟨rfl, fun rest => by simp [splitTagEnd?]⟩
      · rename_i hOn
        obtain ⟨⟨front, back⟩, hRest, hParts⟩ := Option.map_eq_some_iff.mp h
        obtain ⟨rfl, rfl⟩ := Prod.mk.inj hParts
        obtain ⟨rfl, hPasses⟩ := ih hRest
        refine ⟨rfl, fun rest => ?_⟩
        rw [List.cons_append, splitTagEndFrom, if_neg hOn, hPasses, Option.map_map]
        rfl

/-- A tag ends at the first angle bracket that the search for it does not pass over. -/
theorem splitTagEnd?_eq_some (h : splitTagEnd? s = some (inside, after)) :
    s = inside ++ '>' :: after ∧ PassesOver splitTagEnd? inside :=
  splitTagEndFrom_eq_some h

/-- Where a tag ends does not depend on what follows it. -/
theorem splitTagEndFrom_append_of_some (h : splitTagEndFrom quoted s = some (inside, after)) (rest : Text) :
    splitTagEndFrom quoted (s ++ rest) = some (inside, after ++ rest) := by
  obtain ⟨rfl, hPasses⟩ := splitTagEndFrom_eq_some h
  rw [List.append_assoc, hPasses]
  simp [splitTagEnd?, splitTagEndFrom]

/-- Where a tag does not end, the search for its end goes on inside or outside of quotation marks. -/
theorem splitTagEndFrom_eq_none (h : splitTagEndFrom quoted s = none) :
    ∃ quoted', ∀ rest, splitTagEndFrom quoted (s ++ rest) =
      (splitTagEndFrom quoted' rest).map fun parts => (s ++ parts.1, parts.2) := by
  induction s generalizing quoted with
  | nil => exact ⟨quoted, fun rest => by simp⟩
  | cons c s ih =>
      rw [splitTagEndFrom] at h
      split at h
      · cases h
      · rename_i hOn
        obtain ⟨quoted', hPasses⟩ := ih (Option.map_eq_none_iff.mp h)
        refine ⟨quoted', fun rest => ?_⟩
        rw [List.cons_append, splitTagEndFrom, if_neg hOn, hPasses, Option.map_map]
        rfl

/-- Inside of quotation marks, nothing ends a tag but what comes behind the next one. -/
theorem splitTagEndFrom_true (h : '"' ∉ s) : splitTagEndFrom true s = none := by
  induction s with
  | nil => rfl
  | cons c s ih =>
      obtain ⟨hc, hs⟩ := List.ne_and_not_mem_of_not_mem_cons h
      rw [splitTagEndFrom, if_neg (by simp), if_neg (by simpa using hc.symm), ih hs]
      rfl

/-- A search that passes over a text passes over what is in front of an end of it without quotation marks. -/
theorem passesOver_of_append (h : PassesOver splitTagEnd? (s ++ t)) (hQuote : '"' ∉ t) :
    PassesOver splitTagEnd? s := by
  cases hFront : splitTagEnd? s with
  | some parts =>
      have hNone := h []
      have hSome := splitTagEndFrom_append_of_some hFront t
      rw [List.append_nil] at hNone
      cases hNone.symm.trans hSome
  | none =>
      obtain ⟨quoted, hPasses⟩ := splitTagEndFrom_eq_none hFront
      cases quoted with
      | false => exact hPasses
      | true =>
          have hEnd := h ['>']
          have hNone := hPasses (t ++ ['>'])
          rw [splitTagEndFrom_true (by simpa using hQuote), ← List.append_assoc] at hNone
          cases hNone.symm.trans hEnd

end TagEnd

section Names

variable {s inside rest : Text} {tag : NamedTag} {closing : Bool}

theorem NamedTag.afterName?_eq_some (h : NamedTag.afterName? closing s = some tag) :
    s = tag.attributes ++ '>' :: tag.rest ∧ EndsName tag.attributes ∧ tag.closing = closing := by
  cases s with
  | nil => cases h
  | cons c s =>
      rw [NamedTag.afterName?.eq_def] at h
      dsimp only at h
      split at h
      · rename_i hEnd
        cases h
        exact ⟨by rw [beq_iff_eq.mp hEnd]; rfl, ⟨.inl rfl, .nil⟩, rfl⟩
      · split at h
        · rename_i hSlash
          split at h
          · cases h
            have hPasses : PassesOver splitTagEnd? ['/'] := passesOver_plain (by decide) (by decide)
            exact ⟨by rw [beq_iff_eq.mp hSlash]; rfl, ⟨.inr (.inl rfl), hPasses⟩, rfl⟩
          · cases h
        · split at h
          · rename_i hBlank
            obtain ⟨⟨attributes, after⟩, hSplit, rfl⟩ := Option.map_eq_some_iff.mp h
            obtain ⟨rfl, hPasses⟩ := splitTagEnd?_eq_some hSplit
            have hFirst : PassesOver splitTagEnd? [c] :=
              passesOver_blanks fun d hd => List.mem_singleton.mp hd ▸ hBlank
            exact ⟨rfl, ⟨.inr (.inr ⟨c, attributes, rfl, hBlank⟩), hFirst.append hPasses⟩, rfl⟩
          · cases h

def NamedTag.source (name : Text) (tag : NamedTag) : Text :=
  '<' :: ((if tag.closing then ['/'] else []) ++ (name ++ (tag.attributes ++ ['>'])))

/-- A tag that is read stands at the front of the text. -/
theorem NamedTag.read?_eq_some {name : Text} (h : NamedTag.read? name s = some tag) :
    s = tag.source name ++ tag.rest ∧ EndsName tag.attributes := by
  have hBehind : ∀ {closing t}, (Text.dropFront? name t).bind (NamedTag.afterName? closing) = some tag →
      t = name ++ (tag.attributes ++ '>' :: tag.rest) ∧ EndsName tag.attributes ∧ tag.closing = closing := by
    intro closing t ht
    obtain ⟨behind, hFront, hName⟩ := Option.bind_eq_some_iff.mp ht
    obtain ⟨rfl, hEnds, hClosing⟩ := NamedTag.afterName?_eq_some hName
    exact ⟨Text.eq_append_of_dropFront? hFront, hEnds, hClosing⟩
  rw [NamedTag.read?.eq_def] at h
  split at h
  · obtain ⟨rfl, hEnds, hClosing⟩ := hBehind h
    exact ⟨by simp [source, hClosing], hEnds⟩
  · obtain ⟨rfl, hEnds, hClosing⟩ := hBehind h
    exact ⟨by simp [source, hClosing], hEnds⟩
  · cases h

/-- A root tag is all that stands in front of its end. -/
theorem rootTag?_eq_some (h : rootTag? s = some tag) :
    s = "<svg".toList ++ (tag.attributes ++ '>' :: tag.rest) ∧ EndsName tag.attributes := by
  obtain ⟨hRead, hOpening⟩ := Option.filter_eq_some_iff.mp h
  obtain ⟨rfl, hEnds⟩ := NamedTag.read?_eq_some hRead
  have hOpen : tag.closing = false := by simpa using hOpening
  exact ⟨by simp [NamedTag.source, hOpen], hEnds⟩

theorem isTagName_svg : IsTagName "svg".toList := by decide

/-- The tag of the root is found at the front, whatever follows it. -/
theorem rootTag?_append (h : EndsName inside) (rest : Text) :
    rootTag? ("<svg".toList ++ (inside ++ '>' :: rest)) = some ⟨false, inside, rest⟩ := by
  have hRead := NamedTag.read?_endsName isTagName_svg isTagName_svg h rest
  rw [if_pos rfl] at hRead
  exact Option.filter_eq_some_iff.mpr ⟨hRead, rfl⟩

/-- The slash that closes a tag may be left out, with the blanks in front of it. -/
theorem EndsName.trimEnd_dropLast (h : EndsName inside) (hSlash : inside.getLast? = some '/') :
    EndsName (Text.trimEnd inside.dropLast) where
  cases := by
    rcases h.cases with rfl | rfl | ⟨c, rest, rfl, hc⟩
    · cases hSlash
    · exact .inl rfl
    · cases hKept : Text.trimEnd (c :: rest).dropLast with
      | nil => exact .inl rfl
      | cons d kept =>
          have hPrefix := (Text.trimEnd_prefix (c :: rest).dropLast).trans (List.dropLast_prefix _)
          rw [hKept] at hPrefix
          exact .inr (.inr ⟨d, kept, rfl, (List.cons_prefix_cons.mp hPrefix).1 ▸ hc⟩)
  passesOver := by
    obtain ⟨blanks, hParts, hBlanks⟩ := Text.exists_trimEnd inside.dropLast
    have hInside : inside = Text.trimEnd inside.dropLast ++ (blanks ++ ['/']) := by
      obtain ⟨front, rfl⟩ := List.getLast?_eq_some_iff.mp hSlash
      rw [← List.append_assoc, ← hParts, List.dropLast_concat]
    refine passesOver_of_append (hInside ▸ h.passesOver) ?_
    simpa using not_mem_of_blanks hBlanks (by decide)

end Names

section Attributes

variable {s t : Text}

/-- Attributes come out at quotation marks. -/
theorem attributesFrom_of_not_mem (h : '"' ∉ s) (scan : AttributeScan) : attributesFrom scan s = [] := by
  induction s generalizing scan with
  | nil => cases scan <;> rfl
  | cons c s ih =>
      obtain ⟨hc, hs⟩ := List.ne_and_not_mem_of_not_mem_cons h
      cases scan with
      | outside | key | afterKey | afterEquals => rw [attributesFrom, ih hs]
      | value => rw [attributesFrom, if_neg (by simpa using hc.symm), ih hs]

/-- What has no quotation marks adds no attributes. -/
theorem attributesFrom_append (h : '"' ∉ t) (scan : AttributeScan) (s : Text) :
    attributesFrom scan (s ++ t) = attributesFrom scan s := by
  induction s generalizing scan with
  | nil =>
      have hNone : attributesFrom scan [] = [] := by cases scan <;> rfl
      rw [List.nil_append, hNone, attributesFrom_of_not_mem h]
  | cons c s ih =>
      cases scan with
      | outside | key | afterKey | afterEquals => rw [List.cons_append, attributesFrom, attributesFrom, ih]
      | value =>
          rw [List.cons_append, attributesFrom, attributesFrom]
          split
          · rw [ih]
          · rw [ih]

/-- Blanks at the end of a tag are no part of its attributes. -/
theorem attributesIn_trimEnd (s : Text) : attributesIn (Text.trimEnd s) = attributesIn s := by
  obtain ⟨blanks, hParts, hBlanks⟩ := Text.exists_trimEnd s
  have hAll := attributesFrom_append (not_mem_of_blanks (c := '"') hBlanks (by decide)) .outside (Text.trimEnd s)
  rw [← hParts] at hAll
  exact hAll.symm

theorem closesItself_trimEnd (s : Text) : closesItself (Text.trimEnd s) = closesItself s := by
  rw [closesItself, closesItself, Text.trimEnd_trimEnd]

theorem attributesIn_dropLast (h : s.getLast? = some '/') : attributesIn s.dropLast = attributesIn s := by
  obtain ⟨front, rfl⟩ := List.getLast?_eq_some_iff.mp h
  rw [List.dropLast_concat]
  exact (attributesFrom_append (by decide) .outside front).symm

/-- The slashes that close a tag are no part of its attributes. -/
theorem attributesIn_withoutSlash (s : Text) : attributesIn (withoutSlash s) = attributesIn s := by
  have hSlashes : '"' ∉ ((Text.trimEnd s).reverse.takeWhile (· == '/')).reverse := by
    intro hMember
    exact absurd (List.all_eq_true.mp List.all_takeWhile _ (List.mem_reverse.mp hMember)) (by decide)
  have hParts : Text.trimEnd s = withoutSlash s ++ ((Text.trimEnd s).reverse.takeWhile (· == '/')).reverse := by
    rw [withoutSlash, ← List.reverse_append, List.takeWhile_append_dropWhile, List.reverse_reverse]
  rw [← attributesIn_trimEnd s, hParts]
  exact (attributesFrom_append hSlashes .outside (withoutSlash s)).symm

end Attributes

section Root

variable {inside : Text}

/-- The end of what follows a root tag may be trimmed. -/
theorem trim_svg (inside rest : Text) :
    Text.trim ("<svg".toList ++ (inside ++ '>' :: rest)) =
      "<svg".toList ++ (inside ++ '>' :: Text.trimEnd rest) := by
  have hStart : Text.trimStart ("<svg".toList ++ (inside ++ '>' :: rest)) =
      "<svg".toList ++ (inside ++ '>' :: rest) := Text.trimStart_eq_self (by rintro c ⟨rfl⟩; decide)
  rw [Text.trim, hStart, ← List.append_assoc, Text.trimEnd_append_cons _ _ (by decide), List.append_assoc]

/-- What a root is read as, by what stands in its opening tag and behind it. -/
theorem readRoot_svg (h : EndsName inside) (rest : Text) :
    readRoot ("<svg".toList ++ (inside ++ '>' :: rest)) =
      match if closesItself inside then none else splitAtClose? "svg".toList 0 0 (Text.trimEnd rest) with
      | none => .ok ⟨"svg".toList, attributesIn inside, [], true⟩
      | some (body, _) => (readNodes body).map fun children => ⟨"svg".toList, attributesIn inside, children, false⟩ := by
  have hRead := OpenTag.read?_endsName isTagName_svg h (Text.trimEnd rest)
  have hTag : OpenTag.read? ("<svg".toList ++ (inside ++ '>' :: Text.trimEnd rest)) =
      some ⟨"svg".toList, inside, Text.trimEnd rest⟩ := hRead
  have hBody : (if closesItself inside || (Text.trimEnd rest).isEmpty then none
      else splitAtClose? "svg".toList 0 0 (Text.trimEnd rest)) =
        if closesItself inside then none else splitAtClose? "svg".toList 0 0 (Text.trimEnd rest) := by
    cases closesItself inside with
    | true => rfl
    | false =>
        cases Text.trimEnd rest with
        | nil => rfl
        | cons c rest => rfl
  rw [readRoot, trim_svg, readElement?, hTag]
  simp only [attributesIn_withoutSlash, hBody]
  cases (if closesItself inside then none else splitAtClose? "svg".toList 0 0 (Text.trimEnd rest)) with
  | none => rfl
  | some parts =>
      dsimp only
      cases readNodes parts.1 with
      | error | ok => rfl

end Root

/-- Keys are words that a scan for attributes takes as keys. -/
def Attributes.Keyed (attributes : Attributes) : Prop :=
  ∀ pair ∈ attributes, pair.1 ≠ [] ∧ ∀ c ∈ pair.1, isKeyChar c = true

/-- The key being scanned is such a word. -/
def AttributeScan.Keyed : AttributeScan → Prop
  | .outside => True
  | .key k | .afterKey k | .afterEquals k | .value k _ => k ≠ [] ∧ ∀ c ∈ k, isKeyChar c = true

theorem AttributeScan.Keyed.ite {p : Prop} [Decidable p] {first second : AttributeScan} (h : p → first.Keyed)
    (h' : second.Keyed) : (if p then first else second).Keyed := by
  split
  · rename_i hp
    exact h hp
  · exact h'

section Keys

variable {scan : AttributeScan}

theorem AttributeScan.keyed_key {c : Char} (h : isKeyChar c = true) : (AttributeScan.key [c]).Keyed :=
  ⟨List.cons_ne_nil _ _, by simpa using h⟩

/-- Every key that a scan takes can be read as one. -/
theorem keyed_attributesFrom (h : scan.Keyed) (s : Text) : (attributesFrom scan s).Keyed := by
  induction s generalizing scan with
  | nil => simp [attributesFrom, Attributes.Keyed]
  | cons c s ih =>
      cases scan with
      | outside => exact ih (.ite AttributeScan.keyed_key trivial)
      | key k =>
          have hLonger : isKeyChar c = true → (AttributeScan.key (c :: k)).Keyed := fun hc =>
            ⟨List.cons_ne_nil _ _, List.forall_mem_cons.mpr ⟨hc, h.2⟩⟩
          exact ih (.ite hLonger (.ite (fun _ => h) (.ite (fun _ => h) trivial)))
      | afterKey k | afterEquals k =>
          exact ih (.ite AttributeScan.keyed_key (.ite (fun _ => h) (.ite (fun _ => h) trivial)))
      | value k v =>
          rw [attributesFrom]
          split
          · obtain ⟨hSome, hChars⟩ : k ≠ [] ∧ ∀ d ∈ k, isKeyChar d = true := h
            have hKey : k.reverse ≠ [] ∧ ∀ d ∈ k.reverse, isKeyChar d = true := by simpa using ⟨hSome, hChars⟩
            exact List.forall_mem_cons.mpr ⟨hKey, ih trivial⟩
          · exact ih h

theorem keyed_attributesIn (s : Text) : (attributesIn s).Keyed := by
  have hOutside : AttributeScan.outside.Keyed := trivial
  exact keyed_attributesFrom hOutside s

end Keys

/-- The attributes that are left of those written in a tag: a `>` in a key ends the tag. -/
def Attributes.inTag (attributes : Attributes) : Attributes :=
  attributes.takeWhile fun pair => !pair.1.contains '>'

section Rewriting

variable {pairs : Attributes} {ending : Text}

/-- Attributes are written one by one, each behind a space and in double quotes. -/
theorem writtenAttributes_cons (key value : Text) (pairs : Attributes) (rest : Text) :
    writtenAttributes ((key, value) :: pairs) ++ rest =
      [' '] ++ (key ++ ([] ++ '=' :: ([] ++ '"' :: (value ++ '"' :: (writtenAttributes pairs ++ rest))))) := by
  simp [writtenAttributes]

/-- Written attributes end where the tag around them ends, or earlier at a `>` in one of their keys. -/
theorem writtenAttributes_split (hKeyed : pairs.Keyed) (hUnquoted : pairs.Unquoted)
    (hEnding : ending = [] ∨ ending = ['/']) (rest : Text) :
    ∃ inside after, writtenAttributes pairs ++ (ending ++ '>' :: rest) = inside ++ '>' :: after ∧
      PassesOver splitTagEnd? inside ∧ attributesIn inside = pairs.inTag ∧
      (pairs ≠ [] → ∃ t, inside = ' ' :: t) := by
  induction pairs with
  | nil =>
      have hPlain : '"' ∉ ending ∧ '>' ∉ ending := by
        rcases hEnding with rfl | rfl <;> decide
      exact ⟨ending, rest, rfl, passesOver_plain hPlain.1 hPlain.2, attributesFrom_of_not_mem hPlain.1 _,
        fun hNone => absurd rfl hNone⟩
  | cons pair pairs ih =>
      obtain ⟨key, value⟩ := pair
      obtain ⟨⟨hSome, hKey⟩, hKeyed⟩ := List.forall_mem_cons.mp hKeyed
      obtain ⟨hValue, hUnquoted⟩ := List.forall_mem_cons.mp hUnquoted
      have hQuote : '"' ∉ key := fun hMember => absurd (hKey _ hMember) (by decide)
      rw [writtenAttributes_cons]
      by_cases hAngle : '>' ∈ key
      · obtain ⟨front, back, rfl, hFree⟩ := List.eq_append_cons_of_mem hAngle
        have hFront : '"' ∉ ' ' :: front ∧ '>' ∉ ' ' :: front := by
          simp only [List.mem_append, not_or] at hQuote
          simp [hQuote.1, hFree]
        refine ⟨' ' :: front, back ++ '=' :: '"' :: (value ++ '"' :: (writtenAttributes pairs ++ (ending ++ '>' :: rest))),
          by simp, passesOver_plain hFront.1 hFront.2, ?_, fun _ => ⟨front, rfl⟩⟩
        rw [attributesIn, attributesFrom_of_not_mem hFront.1, Attributes.inTag, List.takeWhile_cons_of_neg (by simp)]
      · obtain ⟨inside, after, hSplit, hPasses, hAttributes, -⟩ := ih hKeyed hUnquoted
        have hBlank : Blanks [' '] := by decide
        refine ⟨[' '] ++ (key ++ ([] ++ '=' :: ([] ++ '"' :: (value ++ '"' :: inside)))), after, ?_, ?_, ?_,
          fun _ => ⟨_, rfl⟩⟩
        · rw [hSplit]
          simp
        · have hEquals : PassesOver splitTagEnd? ['='] := passesOver_plain (by decide) (by decide)
          have hAll := (passesOver_blanks hBlank).append ((passesOver_plain hQuote hAngle).append
            (hEquals.append ((passesOver_quoted hValue).append hPasses)))
          simpa using hAll
        · rw [attributesIn, attributesFrom_attribute hBlank hSome hKey (List.forall_mem_nil _) (List.forall_mem_nil _)
            hValue, ← attributesIn, hAttributes, Attributes.inTag, Attributes.inTag,
            List.takeWhile_cons_of_pos (by simpa using hAngle)]

theorem Attributes.set_ne_nil (key value : Text) (attributes : Attributes) : attributes.set key value ≠ [] := by
  cases attributes with
  | nil => exact List.cons_ne_nil _ _
  | cons pair rest =>
      rw [Attributes.set]
      split <;> exact List.cons_ne_nil _ _

/-- Merging leaves no fewer attributes than there were. -/
theorem Attributes.merge_ne_nil {attributes extras : Attributes} (h : attributes ≠ [] ∨ extras ≠ []) :
    attributes.merge extras ≠ [] := by
  induction extras generalizing attributes with
  | nil => simpa [Attributes.merge] using h
  | cons extra rest ih => exact ih (.inl (Attributes.set_ne_nil _ _ _))

section Merged

variable {extras : Attributes}

/-- Merged attributes have keys that can be read. -/
theorem keyed_merge (h : extras.Keyed) (s : Text) :
    ((attributesIn s).merge (extras.mapValues escapeAttribute)).Keyed := by
  refine Attributes.forall_merge (keyed_attributesIn s) fun pair hPair => ?_
  obtain ⟨extra, hExtra, rfl⟩ := List.mem_map.mp hPair
  exact h extra hExtra

theorem unquoted_merge (extras : Attributes) (s : Text) :
    ((attributesIn s).merge (extras.mapValues escapeAttribute)).Unquoted := by
  refine Attributes.forall_merge (unquoted_attributesIn s) fun pair hPair => ?_
  obtain ⟨extra, -, rfl⟩ := List.mem_map.mp hPair
  exact quote_not_mem_escapeAttribute _

theorem merge_mapValues_ne_nil (h : extras ≠ []) (attributes : Attributes) :
    attributes.merge (extras.mapValues escapeAttribute) ≠ [] :=
  Attributes.merge_ne_nil (.inr (by simpa [Attributes.mapValues] using h))

/-- The opening tag of a root with further attributes. -/
theorem withAttributes_eq {markup : Text} {tag : NamedTag} (hTag : rootTag? markup = some tag) (extras : Attributes) :
    withAttributes extras markup = "<svg".toList ++
      (writtenAttributes ((attributesIn tag.attributes).merge (extras.mapValues escapeAttribute)) ++
        ((if closesItself tag.attributes then ['/'] else []) ++ '>' :: tag.rest)) := by
  rw [withAttributes, hTag]
  dsimp only
  rw [attributesIn_withoutSlash]
  cases closesItself tag.attributes <;> simp [Attributes.mapValues]

/-- Attributes that are written anew are the merged ones, as far as a tag can hold them. -/
theorem exists_rootTag_withAttributes {markup : Text} {tag : NamedTag} (hTag : rootTag? markup = some tag)
    (hSome : extras ≠ []) (hKeyed : extras.Keyed) :
    ∃ tag', rootTag? (withAttributes extras markup) = some tag' ∧
      attributesIn tag'.attributes =
        ((attributesIn tag.attributes).merge (extras.mapValues escapeAttribute)).inTag := by
  have hEnding : (if closesItself tag.attributes then ['/'] else []) = [] ∨
      (if closesItself tag.attributes then ['/'] else []) = ['/'] := by
    split
    · exact .inr rfl
    · exact .inl rfl
  obtain ⟨inside, after, hSplit, hPasses, hAttributes, hBlank⟩ :=
    writtenAttributes_split (keyed_merge hKeyed tag.attributes) (unquoted_merge extras tag.attributes) hEnding tag.rest
  obtain ⟨t, ht⟩ := hBlank (merge_mapValues_ne_nil hSome _)
  have hEnds : EndsName inside := ⟨.inr (.inr ⟨' ', t, ht, by decide⟩), hPasses⟩
  exact ⟨⟨false, inside, after⟩, by rw [withAttributes_eq hTag, hSplit, rootTag?_append hEnds], hAttributes⟩

end Merged

end Rewriting

end IconRegistry.Markup
