import IconRegistry.Proofs.Component.ObjectReading
import IconRegistry.Proofs.Markup.TagReading
import IconRegistry.Proofs.Result
import IconRegistry.Proofs.Script.Gap

/-! Style attributes as style objects. A style is split at its semicolons as it stands in markup, where the entities in
its values end in semicolons, too: a declaration is cut off behind the first entity in its value. -/
namespace IconRegistry.Component

open Markup (not_mem_of_blanks)
open Script (IsIdentifier)
open Text (Blanks Trimmed isBlank splitAtChar)

/-- A character as it is written in an attribute value between double quotes. -/
def entityInQuotes (c : Char) : Text :=
  if c = '"' then "&quot;".toList else if c = '&' then "&amp;".toList else if c = '<' then "&lt;".toList else [c]

/-- A text as it is written in an attribute value between double quotes. -/
def escapeQuoted (s : Text) : Text :=
  s.flatMap entityInQuotes

/-- Whether a character is written as an entity between double quotes. -/
def isEscaped (c : Char) : Bool :=
  c == '"' || c == '&' || c == '<'

/-- A declaration of a style, with the blanks around its name and its value. -/
structure Declaration where
  front : Text
  property : Text
  beforeColon : Text
  afterColon : Text
  value : Text
  back : Text

namespace Declaration

def text (d : Declaration) : Text :=
  d.front ++ (d.property ++ d.beforeColon) ++ ':' :: (d.afterColon ++ (d.value ++ d.back))

/-- A value may hold anything but a semicolon, which would end it. -/
structure WellFormed (d : Declaration) : Prop where
  front : Blanks d.front
  beforeColon : Blanks d.beforeColon
  afterColon : Blanks d.afterColon
  back : Blanks d.back
  nonempty : d.value ≠ []
  trimmed : Trimmed d.value
  semicolon : ';' ∉ d.value

instance (d : Declaration) : Decidable d.WellFormed :=
  decidable_of_iff ((Blanks d.front ∧ Blanks d.beforeColon ∧ Blanks d.afterColon ∧ Blanks d.back) ∧
      d.value ≠ [] ∧ Trimmed d.value ∧ ';' ∉ d.value)
    ⟨fun ⟨⟨hFront, hBefore, hAfter, hBack⟩, hSome, hTrimmed, hSemicolon⟩ =>
      ⟨hFront, hBefore, hAfter, hBack, hSome, hTrimmed, hSemicolon⟩,
    fun h => ⟨⟨h.front, h.beforeColon, h.afterColon, h.back⟩, h.nonempty, h.trimmed, h.semicolon⟩⟩

/-- The key of a style object that a declaration asks for: custom properties keep their names. -/
def key (d : Declaration) : Text :=
  if "--".toList <+: d.property then d.property else camelCased d.property

/-- A name that comes out as the key it asks for: a custom property with nothing in it that ends a name or is escaped,
or a name that is no exception for attributes and is a name of scripts in camel case. -/
def NameKept (d : Declaration) : Prop :=
  if "--".toList <+: d.property then
    Trimmed d.property ∧ ∀ c ∈ d.property, isEscaped c = false ∧ c ≠ ':' ∧ c ≠ ';'
  else
    IsIdentifier (camelCased d.property) ∧ ¬"aria-".toList <+: d.property ∧ ¬"data-".toList <+: d.property ∧
      d.property ≠ "class".toList

instance (d : Declaration) : Decidable d.NameKept := by
  delta NameKept
  infer_instance

/-- A value without entities, or one that looks like what is left of it when it is cut off behind its first entity. -/
def ValueKept (d : Declaration) : Prop :=
  (∀ c ∈ d.value, isEscaped c = false) ∨
    ∃ front, d.value = front ++ "&amp".toList ∧ ∀ c ∈ front, isEscaped c = false

end Declaration

/-- What stands between the semicolons of a style. Behind the last one there may be nothing. -/
inductive StylePart
  | declaration (d : Declaration)
  | blank (s : Text)

namespace StylePart

def text : StylePart → Text
  | .declaration d => d.text
  | .blank s => s

def WellFormed : StylePart → Prop
  | .declaration d => d.WellFormed
  | .blank s => Blanks s

instance : DecidablePred WellFormed
  | .declaration d => inferInstanceAs (Decidable d.WellFormed)
  | .blank s => inferInstanceAs (Decidable (Blanks s))

def declaration? : StylePart → Option Declaration
  | .declaration d => some d
  | .blank _ => none

end StylePart

section Escaping

variable {s t : Text} {c : Char}

theorem escapeQuoted_append (s t : Text) : escapeQuoted (s ++ t) = escapeQuoted s ++ escapeQuoted t :=
  List.flatMap_append

theorem entityInQuotes_of_not_escaped (h : isEscaped c = false) : entityInQuotes c = [c] := by
  simp only [isEscaped, Bool.or_eq_false_iff, beq_eq_false_iff_ne] at h
  rw [entityInQuotes, if_neg h.1.1, if_neg h.1.2, if_neg h.2]

theorem escapeQuoted_cons (h : isEscaped c = false) (s : Text) : escapeQuoted (c :: s) = c :: escapeQuoted s := by
  rw [escapeQuoted, List.flatMap_cons, entityInQuotes_of_not_escaped h]
  rfl

theorem escapeQuoted_eq_self (h : ∀ c ∈ s, isEscaped c = false) : escapeQuoted s = s := by
  rw [escapeQuoted, List.flatMap_def, List.map_congr_left fun c hc => entityInQuotes_of_not_escaped (h c hc),
    ← List.flatMap_def, List.flatMap_singleton']

def entityNames : List Text :=
  ["quot".toList, "amp".toList, "lt".toList]

/-- What is escaped is spelled by an entity that ends in a semicolon. -/
theorem entityInQuotes_of_escaped (h : isEscaped c = true) :
    ∃ name ∈ entityNames, entityInQuotes c = '&' :: name ++ [';'] ∧ (c = '&' ↔ name = "amp".toList) := by
  simp only [isEscaped, Bool.or_eq_true, beq_iff_eq, or_assoc] at h
  rcases h with rfl | rfl | rfl
  · exact ⟨"quot".toList, by decide, rfl, by decide⟩
  · exact ⟨"amp".toList, by decide, rfl, by decide⟩
  · exact ⟨"lt".toList, by decide, rfl, by decide⟩

/-- Neither of the marks of a style is in an entity but for the semicolon at its end. -/
theorem marks_not_mem_entity : ∀ name ∈ entityNames, ':' ∉ '&' :: name ∧ ';' ∉ '&' :: name := by
  decide

/-- The first escaped character parts the escaped text, if it is split at its semicolons. -/
theorem escapeQuoted_first {front name : Text} (hFront : ∀ d ∈ front, isEscaped d = false)
    (hEntity : entityInQuotes c = '&' :: name ++ [';']) (back : Text) :
    escapeQuoted (front ++ c :: back) = (front ++ '&' :: name) ++ ';' :: escapeQuoted back := by
  rw [escapeQuoted_append, escapeQuoted_eq_self hFront, escapeQuoted, List.flatMap_cons, hEntity]
  simp [escapeQuoted]

theorem isEscaped_of_isBlank (h : isBlank c = true) : isEscaped c = false := by
  cases hEscaped : isEscaped c with
  | false => rfl
  | true =>
      simp only [isEscaped, Bool.or_eq_true, beq_iff_eq, or_assoc] at hEscaped
      rcases hEscaped with rfl | rfl | rfl <;> cases h

theorem escapeQuoted_blanks (h : Blanks s) : escapeQuoted s = s :=
  escapeQuoted_eq_self fun c hc => isEscaped_of_isBlank (h c hc)

/-- A text is free of escaped characters, or it has a first one. -/
theorem exists_escaped (s : Text) :
    (∀ c ∈ s, isEscaped c = false) ∨
      ∃ front c back, s = front ++ c :: back ∧ (∀ d ∈ front, isEscaped d = false) ∧ isEscaped c = true := by
  induction s with
  | nil => exact .inl (by simp)
  | cons d s ih =>
      cases hd : isEscaped d with
      | true => exact .inr ⟨[], d, s, rfl, by simp, hd⟩
      | false =>
          rcases ih with hNone | ⟨front, c, back, rfl, hFront, hc⟩
          · exact .inl (List.forall_mem_cons.mpr ⟨hd, hNone⟩)
          · exact .inr ⟨d :: front, c, back, rfl, List.forall_mem_cons.mpr ⟨hd, hFront⟩, hc⟩

/-- The first escaped character is one. -/
theorem escaped_unique {front front' back back' : Text} {c' : Char} (hSame : front ++ c :: back = front' ++ c' :: back')
    (hFront : ∀ d ∈ front, isEscaped d = false) (hFront' : ∀ d ∈ front', isEscaped d = false)
    (hc : isEscaped c = true) (hc' : isEscaped c' = true) : front = front' ∧ c = c' ∧ back = back' := by
  have hTake : ∀ {front back : Text} {c : Char}, (∀ d ∈ front, isEscaped d = false) → isEscaped c = true →
      (front ++ c :: back).takeWhile (fun d => !isEscaped d) = front := by
    intro front back c hFront hc
    rw [List.takeWhile_append_of_pos (by simpa using hFront), List.takeWhile_cons_of_neg (by simp [hc]),
      List.append_nil]
  have hFirst : (front ++ c :: back).takeWhile (fun d => !isEscaped d) = front := hTake hFront hc
  obtain rfl : front = front' := by rw [← hFirst, hSame, hTake hFront' hc']
  exact ⟨rfl, List.cons_eq_cons.mp (List.append_cancel_left hSame)⟩

end Escaping

section Entries

variable {s t : Text} {entry : Text × Text}

/-- The name and the value that one declaration of a style is taken for. -/
def styleMember? (declaration : Text) : Option (Text × Text) := do
  let (property, value) ← Text.splitOnce? ':' declaration
  if (Text.trim property).isEmpty then none else some (Text.trim property, Text.trim value)

/-- The names and the values that a style is taken for. -/
def styleEntries (style : Text) : List (Text × Text) :=
  (splitAtChar ';' style).filterMap styleMember?

def styleKey (property : Text) : Text :=
  if "--".toList.isPrefixOf property then stringLiteral property else camelAttribute property

/-- The key that is read from a style object for a property, unless it is none. -/
def readKey? (property : Text) : Option Text :=
  if "--".toList.isPrefixOf property then some property else nameKey? (camelAttribute property)

theorem styleObject_eq (style : Text) :
    styleObject style = objectLiteral ((styleEntries style).map (writtenEntry styleKey)) := by
  rw [styleObject, styleEntries, List.map_filterMap]
  congr 2
  funext declaration
  rw [styleProperty?, styleMember?]
  cases Text.splitOnce? ':' declaration with
  | none => rfl
  | some parts =>
      simp only [Option.bind_eq_bind, Option.bind_some]
      split <;> rfl

/-- A semicolon separates the entries of a style. -/
theorem styleEntries_append (s t : Text) : styleEntries (s ++ ';' :: t) = styleEntries s ++ styleEntries t := by
  rw [styleEntries, Text.splitAtChar_append, List.filterMap_append]
  rfl

theorem styleEntries_of_not_mem (h : ';' ∉ s) : styleEntries s = (styleMember? s).toList := by
  rw [styleEntries, Text.splitAtChar_of_not_mem h]
  cases hEntry : styleMember? s <;> simp [hEntry]

theorem styleMember?_of_not_mem (h : ':' ∉ s) : styleMember? s = none := by
  have hNone : Text.splitOnce? ':' s = none := by
    induction s with
    | nil => rfl
    | cons c s ih =>
        obtain ⟨hHere, hRest⟩ : ':' ≠ c ∧ ':' ∉ s := by simpa using h
        simp [Text.splitOnce?, Ne.symm hHere, ih hRest]
  rw [styleMember?, hNone]
  rfl

/-- A declaration is taken for what stands on the two sides of its first colon. -/
theorem styleMember?_around {front property beforeColon afterColon value back : Text} (hFront : Blanks front)
    (hBeforeColon : Blanks beforeColon) (hAfterColon : Blanks afterColon) (hBack : Blanks back)
    (hSome : property ≠ []) (hProperty : Trimmed property) (hColon : ':' ∉ property) (hValue : Trimmed value) :
    styleMember? (front ++ (property ++ beforeColon) ++ ':' :: (afterColon ++ (value ++ back))) =
      some (property, value) := by
  have hNoColon : ':' ∉ front ++ (property ++ beforeColon) := by
    simp only [List.mem_append, not_or]
    exact ⟨not_mem_of_blanks hFront (by decide), hColon, not_mem_of_blanks hBeforeColon (by decide)⟩
  rw [styleMember?, Text.splitOnce?_append hNoColon]
  simp only [Option.bind_eq_bind, Option.bind_some, Text.trim_around hFront hProperty hBeforeColon,
    Text.trim_around hAfterColon hValue hBack]
  rw [if_neg (by simpa using hSome)]

/-- A name that stands in markup as it is and is found there as it is. -/
structure IsPlainProperty (property : Text) : Prop where
  nonempty : property ≠ []
  trimmed : Trimmed property
  plain : ∀ c ∈ property, isEscaped c = false ∧ c ≠ ':' ∧ c ≠ ';'

/-- What is between two semicolons of escaped text is plain, up to the entity at its end if there is one. -/
theorem exists_plain_of_mem_split {piece : Text} (h : piece ∈ splitAtChar ';' (escapeQuoted s)) :
    ∃ plain ending, piece = plain ++ ending ∧ (∀ c ∈ plain, isEscaped c = false) ∧
      (ending = [] ∨ ∃ name ∈ entityNames, ending = '&' :: name) := by
  induction hLength : s.length using Nat.strongRecOn generalizing s piece with
  | _ n ih =>
    rcases exists_escaped s with hNone | ⟨front, c, back, rfl, hFront, hc⟩
    · rw [escapeQuoted_eq_self hNone] at h
      refine ⟨piece, [], by simp, fun c hc => hNone c ?_, .inl rfl⟩
      exact (Text.infix_of_mem_splitAtChar h).subset hc
    · obtain ⟨name, hName, hEntity, -⟩ := entityInQuotes_of_escaped hc
      rw [escapeQuoted_first hFront hEntity, Text.splitAtChar_append, List.mem_append] at h
      rcases h with h | h
      · rcases Text.mem_splitAtChar_append (marks_not_mem_entity name hName).2 h with h | ⟨last, hLast, rfl⟩
        · exact ⟨piece, [], by simp, fun d hd => hFront d ((Text.infix_of_mem_splitAtChar h).subset hd), .inl rfl⟩
        · exact ⟨last, _, rfl, fun d hd => hFront d (hLast.subset hd), .inr ⟨name, hName, rfl⟩⟩
      · exact ih back.length (by simp at hLength; omega) h rfl

/-- Whatever a style is, its escaped text is taken for properties with plain names. -/
theorem plain_of_mem_styleEntries (h : entry ∈ styleEntries (escapeQuoted s)) : IsPlainProperty entry.1 := by
  obtain ⟨piece, hPiece, hEntry⟩ := List.mem_filterMap.mp h
  have hSemicolon := Text.not_mem_of_mem_splitAtChar hPiece
  obtain ⟨plain, ending, rfl, hPlain, hEnding⟩ := exists_plain_of_mem_split hPiece
  have hEndingColon : ':' ∉ ending := by
    rcases hEnding with rfl | ⟨name, hName, rfl⟩
    · simp
    · exact (marks_not_mem_entity name hName).1
  by_cases hColon : ':' ∈ plain
  · obtain ⟨front, back, rfl, hFront⟩ := List.eq_append_cons_of_mem hColon
    rw [List.append_assoc, List.cons_append, styleMember?, Text.splitOnce?_append hFront] at hEntry
    simp only [Option.bind_eq_bind, Option.bind_some] at hEntry
    split at hEntry
    · cases hEntry
    · rename_i hSome
      cases hEntry
      refine ⟨by simpa using hSome, Text.trimmed_trim front, fun c hc => ?_⟩
      have hMember : c ∈ front := Text.trim_subset front hc
      refine ⟨hPlain c (List.mem_append_left _ hMember), ?_, ?_⟩
      · rintro rfl
        exact hFront hMember
      · rintro rfl
        exact hSemicolon (List.mem_append_left _ (List.mem_append_left _ hMember))
  · rw [styleMember?_of_not_mem (by simp [hColon, hEndingColon])] at hEntry
    cases hEntry

end Entries

section Declarations

variable {d : Declaration}

/-- A text that is cut within an entity stays trimmed. -/
theorem trimmed_cut {front back name : Text} {c : Char} (h : Trimmed (front ++ c :: back))
    (hName : name ∈ entityNames) : Trimmed (front ++ '&' :: name) where
  head e he := by
    cases front with
    | nil =>
        cases he
        rfl
    | cons d front => exact h.head e he
  last e he := by
    have hNames : ∀ t ∈ entityNames, isBlank (t.getLast?.getD '&') = false := by decide
    obtain rfl : name.getLast?.getD '&' = e := by simpa [List.getLast?_cons] using he
    exact hNames name hName

/-- Escaping a declaration with a plain property changes its value only. -/
theorem escapeQuoted_declaration (h : d.WellFormed) (hName : IsPlainProperty d.property) :
    escapeQuoted d.text = d.front ++ (d.property ++ d.beforeColon) ++
      ':' :: (d.afterColon ++ (escapeQuoted d.value ++ d.back)) := by
  rw [Declaration.text, escapeQuoted_append, escapeQuoted_append, escapeQuoted_append, escapeQuoted_cons (by decide),
    escapeQuoted_append, escapeQuoted_append, escapeQuoted_blanks h.front, escapeQuoted_blanks h.beforeColon,
    escapeQuoted_blanks h.afterColon, escapeQuoted_blanks h.back,
    escapeQuoted_eq_self fun c hc => (hName.plain c hc).1]

/-- A declaration without a semicolon in its value is the only entry of its text. -/
theorem styleEntries_declaration {value back : Text} (h : d.WellFormed) (hName : IsPlainProperty d.property)
    (hValue : Trimmed value) (hBack : Blanks back) (hSemicolon : ';' ∉ value) :
    styleEntries (d.front ++ (d.property ++ d.beforeColon) ++ ':' :: (d.afterColon ++ (value ++ back))) =
      [(d.property, value)] := by
  have hColon : ':' ∉ d.property := fun hMember => (hName.plain _ hMember).2.1 rfl
  rw [styleEntries_of_not_mem, styleMember?_around h.front h.beforeColon h.afterColon hBack hName.nonempty
    hName.trimmed hColon hValue]
  · rfl
  · have hProperty : ';' ∉ d.property := fun hMember => (hName.plain _ hMember).2.2 rfl
    have hFront := not_mem_of_blanks (c := ';') h.front (by decide)
    have hBefore := not_mem_of_blanks (c := ';') h.beforeColon (by decide)
    have hAfter := not_mem_of_blanks (c := ';') h.afterColon (by decide)
    have hBehind := not_mem_of_blanks (c := ';') hBack (by decide)
    simp [hProperty, hFront, hBefore, hAfter, hBehind, hSemicolon]

/-- A value that is cut at its first entity is kept only if it ends in `&amp`. -/
theorem valueKept_iff_of_escaped {front back : Text} {c : Char} (hValue : d.value = front ++ c :: back)
    (hFront : ∀ e ∈ front, isEscaped e = false) (hc : isEscaped c = true) :
    d.ValueKept ↔ c = '&' ∧ back = "amp".toList := by
  constructor
  · rintro (hNone | ⟨front', hParts, hFront'⟩)
    · rw [hNone c (by simp [hValue])] at hc
      cases hc
    · rw [hValue] at hParts
      exact (escaped_unique hParts hFront hFront' hc (by decide)).2
  · rintro ⟨rfl, rfl⟩
    exact .inr ⟨front, hValue, hFront⟩

/-- A declaration with a plain name is taken for one with that name and what its value is cut down to, and whatever
its value goes on with. -/
theorem exists_styleEntries_declaration (h : d.WellFormed) (hName : IsPlainProperty d.property) :
    ∃ found more, styleEntries (escapeQuoted d.text) = (d.property, found) :: more ∧
      (found = d.value ↔ d.ValueKept) ∧ (found = d.value → more = []) := by
  rcases exists_escaped d.value with hNone | ⟨front, c, back, hValue, hFront, hc⟩
  · refine ⟨d.value, [], ?_, iff_of_true rfl (.inl hNone), fun _ => rfl⟩
    rw [escapeQuoted_declaration h hName, escapeQuoted_eq_self hNone,
      styleEntries_declaration h hName h.trimmed h.back h.semicolon]
  · obtain ⟨name, hEntityName, hEntity, hAmp⟩ := entityInQuotes_of_escaped hc
    have hCut : escapeQuoted d.text = d.front ++ (d.property ++ d.beforeColon) ++
        ':' :: (d.afterColon ++ (front ++ '&' :: name ++ [])) ++ ';' :: (escapeQuoted back ++ d.back) := by
      rw [escapeQuoted_declaration h hName, hValue, escapeQuoted_first hFront hEntity]
      simp
    have hSemicolon : ';' ∉ front ++ '&' :: name := by
      rw [List.mem_append, not_or]
      exact ⟨fun hMember => h.semicolon (hValue ▸ List.mem_append_left _ hMember),
        (marks_not_mem_entity name hEntityName).2⟩
    have hSame : front ++ '&' :: name = d.value ↔ c = '&' ∧ back = "amp".toList := by
      rw [hValue, List.append_cancel_left_eq, List.cons_eq_cons]
      constructor
      · rintro ⟨hHere, rfl⟩
        exact ⟨hHere.symm, hAmp.mp hHere.symm⟩
      · rintro ⟨hHere, rfl⟩
        exact ⟨hHere.symm, hAmp.mp hHere⟩
    refine ⟨front ++ '&' :: name, styleEntries (escapeQuoted back ++ d.back), ?_,
      hSame.trans (valueKept_iff_of_escaped hValue hFront hc).symm, ?_⟩
    · have hTrimmed : Trimmed (front ++ '&' :: name) := trimmed_cut (hValue ▸ h.trimmed) hEntityName
      rw [hCut, styleEntries_append,
        styleEntries_declaration h hName hTrimmed (List.forall_mem_nil _) hSemicolon]
      rfl
    · intro hFound
      obtain ⟨-, rfl⟩ := hSame.mp hFound
      have hFree : ∀ c, c ∉ "amp".toList → isBlank c = false → c ∉ "amp".toList ++ d.back := by
        intro c hc hBlank
        rw [List.mem_append, not_or]
        exact ⟨hc, not_mem_of_blanks h.back hBlank⟩
      rw [escapeQuoted_eq_self (by decide), styleEntries_of_not_mem (hFree ';' (by decide) (by decide)),
        styleMember?_of_not_mem (hFree ':' (by decide) (by decide))]
      rfl

/-- What camel case makes a name of scripts is a plain name: other characters stay in it as they are. -/
theorem isPlainProperty_of_camelCased {property : Text} (h : IsIdentifier (camelCased property)) :
    IsPlainProperty property := by
  have hBlank : ∀ c ∈ Script.gapBlankCodes.map Char.ofNat,
      c ≠ '-' ∧ Text.upperOf c = [c] ∧ Script.isNamePart c = false := by decide +kernel
  have hSyntax : ∀ c ∈ ['"', '&', '<', ':', ';'],
      c ≠ '-' ∧ Text.upperOf c = [c] ∧ Script.isNamePart c = false := by decide +kernel
  have hNever : ∀ c ∈ property, ¬(c ≠ '-' ∧ Text.upperOf c = [c] ∧ Script.isNamePart c = false) := by
    rintro c hc ⟨hHyphen, hUpper, hPart⟩
    rw [h.parts (mem_camelCased hc hHyphen hUpper)] at hPart
    cases hPart
  have hNoBlank : ∀ c ∈ property, isBlank c = false := by
    intro c hc
    cases hHere : isBlank c with
    | false => rfl
    | true =>
        have hCode := Script.mem_gapBlankCodes (Script.isGapBlank_of_isBlank hHere)
        exact absurd (hBlank c (List.mem_map.mpr ⟨_, hCode, Char.ofNat_toNat c⟩)) (hNever c hc)
  have hNoSyntax : ∀ c ∈ property, c ∉ ['"', '&', '<', ':', ';'] := fun c hc hHere => hNever c hc (hSyntax c hHere)
  refine ⟨?_, ⟨fun c hc => hNoBlank c (List.mem_of_head? hc), fun c hc => hNoBlank c (List.mem_of_getLast? hc)⟩,
    fun c hc => ?_⟩
  · rintro rfl
    exact h
  · have hOther := hNoSyntax c hc
    simp only [List.mem_cons, List.not_mem_nil, or_false, not_or] at hOther
    simp [isEscaped, hOther]

theorem nameKey?_eq_some {word key : Text} : nameKey? word = some key ↔ IsIdentifier word ∧ word = key := by
  rw [nameKey?]
  split <;> simp_all

/-- A name is kept exactly if it is plain and can be read as its key. -/
theorem nameKept_iff (d : Declaration) :
    d.NameKept ↔ IsPlainProperty d.property ∧ readKey? d.property = some d.key := by
  rw [Declaration.NameKept, readKey?, Declaration.key]
  by_cases hCustom : "--".toList <+: d.property
  · rw [if_pos hCustom, if_pos (List.isPrefixOf_iff_prefix.mpr hCustom), if_pos hCustom, and_iff_left rfl]
    have hSome : d.property ≠ [] := by
      intro hNone
      rw [hNone] at hCustom
      exact absurd hCustom (by decide)
    exact ⟨fun h => ⟨hSome, h.1, h.2⟩, fun h => ⟨h.trimmed, h.plain⟩⟩
  · rw [if_neg hCustom, if_neg (by simpa using hCustom), if_neg hCustom, nameKey?_eq_some]
    have hException : IsPlainProperty d.property → (camelAttribute d.property = camelCased d.property ↔ _) :=
      fun hPlain => camelAttribute_eq_camelCased_iff fun hColon => (hPlain.plain _ hColon).2.1 rfl
    constructor
    · rintro ⟨hName, hOrdinary⟩
      have hPlain := isPlainProperty_of_camelCased hName
      have hSame := (hException hPlain).mpr hOrdinary
      exact ⟨hPlain, hSame ▸ hName, hSame⟩
    · rintro ⟨hPlain, hName, hSame⟩
      exact ⟨hSame ▸ hName, (hException hPlain).mp hSame⟩

/-- Only a plain name asks for a key that is read for one. -/
theorem isPlainProperty_of_readKey? {property : Text} (hPlain : IsPlainProperty property)
    (h : readKey? property = some d.key) : IsPlainProperty d.property := by
  have hHyphen : ∀ {name : Text}, IsIdentifier name → '-' ∉ name := fun hName => hName.not_mem (by decide)
  rw [readKey?, Declaration.key] at h
  by_cases hCustom : "--".toList <+: d.property
  · rw [if_pos hCustom] at h
    split at h
    · rwa [← Option.some.inj h]
    · obtain ⟨hName, hSame⟩ := nameKey?_eq_some.mp h
      exact absurd (hCustom.subset (by decide)) (hHyphen (hSame ▸ hName))
  · rw [if_neg hCustom] at h
    split at h
    · rename_i hPrefix
      have hMember : '-' ∈ property := (List.isPrefixOf_iff_prefix.mp hPrefix).subset (by decide)
      rw [Option.some.inj h] at hMember
      exact absurd hMember (hyphen_not_mem_camelCased _)
    · obtain ⟨hName, hSame⟩ := nameKey?_eq_some.mp h
      exact isPlainProperty_of_camelCased (hSame ▸ hName)

end Declarations

section Styles

variable {parts : List StylePart}

/-- What is read from a style object for an entry of a style. -/
def readMember? (entry : Text × Text) : Option (Text × Text) :=
  (readKey? entry.1).map fun key => (key, entry.2)

theorem readMember?_eq_some {property found key value : Text} :
    readMember? (property, found) = some (key, value) ↔ readKey? property = some key ∧ found = value := by
  rw [readMember?]
  cases readKey? property <;> simp

def declarations (parts : List StylePart) : List Declaration :=
  parts.filterMap StylePart.declaration?

/-- The semicolons between the parts of a style part its entries, too. -/
theorem styleEntries_join (parts : List StylePart) :
    styleEntries (escapeQuoted (Text.join [';'] (parts.map StylePart.text))) =
      parts.flatMap fun part => styleEntries (escapeQuoted part.text) := by
  induction parts with
  | nil => rfl
  | cons part rest ih =>
      cases rest with
      | nil => simp [Text.join]
      | cons next rest =>
          rw [List.map_cons, Text.join_cons _ _ (by simp), List.append_assoc, List.singleton_append,
            escapeQuoted_append, escapeQuoted_cons (by decide), styleEntries_append, ih]
          rfl

theorem styleEntries_blanks {s : Text} (h : Blanks s) : styleEntries (escapeQuoted s) = [] := by
  rw [escapeQuoted_blanks h, styleEntries_of_not_mem (not_mem_of_blanks h (by decide)),
    styleMember?_of_not_mem (not_mem_of_blanks h (by decide))]
  rfl

/-- The entries of a style are read as its declarations where each single one is. -/
theorem map_readMember?_eq_iff (h : ∀ part ∈ parts, part.WellFormed)
    (hPlain : ∀ d ∈ declarations parts, IsPlainProperty d.property) :
    (parts.flatMap fun part => styleEntries (escapeQuoted part.text)).map readMember? =
        (declarations parts).map (fun d => some (d.key, d.value)) ↔
      ∀ d ∈ declarations parts, readKey? d.property = some d.key ∧ d.ValueKept := by
  induction parts with
  | nil => simp [declarations]
  | cons part rest ih =>
      obtain ⟨hHere, hRest⟩ := List.forall_mem_cons.mp h
      cases part with
      | blank s =>
          have hNone : styleEntries (escapeQuoted (StylePart.blank s).text) = [] := styleEntries_blanks hHere
          rw [List.flatMap_cons, hNone]
          exact ih hRest hPlain
      | declaration d =>
          obtain ⟨hName, hOthers⟩ := List.forall_mem_cons.mp hPlain
          obtain ⟨found, more, hEntries, hValue, hMore⟩ := exists_styleEntries_declaration hHere hName
          have hStep : declarations (.declaration d :: rest) = d :: declarations rest := rfl
          rw [List.flatMap_cons, StylePart.text, hEntries, hStep, List.map_cons, List.cons_append, List.map_cons,
            List.cons_eq_cons, readMember?_eq_some, List.forall_mem_cons, ← hValue]
          refine and_congr_right fun hFirst => ?_
          rw [hMore hFirst.2, List.nil_append]
          exact ih hRest hOthers

/-- In camel case, a style is written as an object that has its declarations for properties, in order, just where each
name is kept and each value is: if a value has an entity in it, the declaration ends behind the first one. -/
theorem style_carried_iff (parts : List StylePart) (h : ∀ part ∈ parts, part.WellFormed) :
    ∃ object, jsxAttribute .camel "style".toList (escapeQuoted (Text.join [';'] (parts.map StylePart.text))) =
        "style=".toList ++ inBraces object ∧
      (objectEntries? object = some ((declarations parts).map fun d => (d.key, d.value)) ↔
        ∀ d ∈ declarations parts, d.NameKept ∧ d.ValueKept) := by
  have hText : ∀ style, jsxAttribute .camel "style".toList style = "style=".toList ++ inBraces (styleObject style) :=
    fun _ => rfl
  refine ⟨_, hText _, ?_⟩
  have hPlain : ∀ entry ∈ parts.flatMap fun part => styleEntries (escapeQuoted part.text),
      IsPlainProperty entry.1 := by
    rw [← styleEntries_join]
    exact fun entry hEntry => plain_of_mem_styleEntries hEntry
  have hKeys : ∀ entry ∈ parts.flatMap fun part => styleEntries (escapeQuoted part.text), ∀ rest,
      keyBefore? (styleKey entry.1 ++ (": ".toList ++ rest)) = (readKey? entry.1).map fun key => (key, rest) := by
    intro entry hEntry rest
    have hName := (hPlain entry hEntry).plain
    rw [styleKey, readKey?]
    split
    · exact keyBefore?_stringLiteral _ rest
    · refine keyBefore?_word (fun hQuote => ?_) (fun hColon => ?_) rest
      · exact absurd (hName _ (mem_camelAttribute hQuote (by decide) (by decide) (by decide))).1 (by decide)
      · exact (hName _ (mem_camelAttribute hColon (by decide) (by decide) (by decide))).2.1 rfl
  rw [styleObject_eq, styleEntries_join, objectEntries?_objectLiteral hKeys, mapM_eq_some_iff, List.map_map]
  constructor
  · intro hSame
    have hNames : ∀ d ∈ declarations parts, IsPlainProperty d.property := by
      intro d hd
      have hMember : some (d.key, d.value) ∈
          (parts.flatMap fun part => styleEntries (escapeQuoted part.text)).map readMember? :=
        hSame ▸ List.mem_map_of_mem hd
      obtain ⟨entry, hEntry, hRead⟩ := List.mem_map.mp hMember
      exact isPlainProperty_of_readKey? (hPlain entry hEntry) (readMember?_eq_some.mp hRead).1
    intro d hd
    obtain ⟨hKey, hValue⟩ := (map_readMember?_eq_iff h hNames).mp hSame d hd
    exact ⟨(nameKept_iff d).mpr ⟨hNames d hd, hKey⟩, hValue⟩
  · intro hKept
    refine (map_readMember?_eq_iff h fun d hd => ((nameKept_iff d).mp (hKept d hd).1).1).mpr fun d hd => ?_
    exact ⟨((nameKept_iff d).mp (hKept d hd).1).2, (hKept d hd).2⟩

/-- Colons and quotation marks of the other kind do not end a value, and custom properties keep their names. -/
theorem style_carried_of_icon :
    ∃ object, jsxAttribute .camel "style".toList
        "--c:url(a:b); -webkit-text : 'A', b;stroke-width: 2 ; ".toList = "style=".toList ++ inBraces object ∧
      objectEntries? object = some [("--c".toList, "url(a:b)".toList), ("WebkitText".toList, "'A', b".toList),
        ("strokeWidth".toList, "2".toList)] := by
  obtain ⟨object, hText, hRead⟩ := style_carried_iff
    [.declaration ⟨[], "--c".toList, [], [], "url(a:b)".toList, []⟩,
      .declaration ⟨[' '], "-webkit-text".toList, [' '], [' '], "'A', b".toList, []⟩,
      .declaration ⟨[], "stroke-width".toList, [], [' '], "2".toList, [' ']⟩, .blank [' ']] (by decide +kernel)
  refine ⟨object, hText, hRead.mpr fun d hd => ⟨?_, .inl ?_⟩⟩
  · revert d
    decide +kernel
  · revert d
    decide +kernel

/-- A font by the name that is left in quotation marks: of the value, the front of an entity stays. -/
def quotedFont : Declaration :=
  ⟨[], "font-family".toList, [], [' '], "\"Inter\"".toList, []⟩

/-- Quotation marks that stand in a value are entities in markup, and the first one ends the declaration. -/
theorem style_cut_at_entity :
    quotedFont.WellFormed ∧ (quotedFont.key, quotedFont.value) = ("fontFamily".toList, "\"Inter\"".toList) ∧
      escapeQuoted quotedFont.text = "font-family: &quot;Inter&quot;".toList ∧
      jsxAttribute .camel "style".toList "font-family: &quot;Inter&quot;".toList =
        "style=\x7b\x7b fontFamily: \"&quot\" \x7d\x7d".toList ∧
      objectEntries? "\x7b fontFamily: \"&quot\" \x7d".toList = some [("fontFamily".toList, "&quot".toList)] :=
  ⟨by decide +kernel, by decide +kernel, by decide +kernel, by decide +kernel, by decide +kernel⟩

end Styles

end IconRegistry.Component
