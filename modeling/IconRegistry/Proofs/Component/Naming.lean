import IconRegistry.Proofs.Component.CallReading
import IconRegistry.Proofs.Component.CamelCase
import IconRegistry.Proofs.Component.Titling
import Mathlib.Data.List.TakeWhile

/-! The names of an icon in what is rendered for it: each attribute and the title are read back as their target reads
them. Between a name and its target stand escaping and the reading of entities, which undo one another in JSX
attributes; in calls the reading alone is left. -/
namespace IconRegistry

open Markup
open Text (Trimmed)

namespace Markup.Attributes

variable {key key' value : Text} {keeps : Text → Bool} {extras : Attributes}

/-- The value of the last attribute called `key`, which is the one that counts where there are several. -/
def last? (attributes : Attributes) (key : Text) : Option Text :=
  ((attributes.filter (·.1 == key)).getLast?).map (·.2)

/-- The attributes up to the first one whose key does not keep the tag open. -/
def kept (keeps : Text → Bool) (attributes : Attributes) : Attributes :=
  attributes.takeWhile (keeps ·.1)

def behind (key : Text) (attributes : Attributes) : Attributes :=
  (attributes.dropWhile (·.1 != key)).tail

/-- Setting an attribute reaches as far as the tag: there is one of its key in the tag, or the tag does not end early. -/
def Reaches (keeps : Text → Bool) (key : Text) (attributes : Attributes) : Prop :=
  attributes.kept keeps = attributes ∨ ∃ pair ∈ attributes.kept keeps, pair.1 = key

section Cons

variable (w : Text) (rest : Attributes)

/-- What is shown of a key is its last value, so an earlier one shows if there is no other. -/
theorem last?_cons_self :
    last? ((key, w) :: rest) key = some ((rest.last? key).getD w) := by
  rw [last?, last?, List.filter_cons_of_pos (by simp), List.getLast?_cons]
  cases (rest.filter (·.1 == key)).getLast? <;> rfl

theorem last?_cons_of_ne (h : key' ≠ key) : last? ((key', w) :: rest) key = rest.last? key := by
  rw [last?, last?, List.filter_cons_of_neg (by simpa using h)]

theorem kept_cons_of_pos (h : keeps key = true) : kept keeps ((key, w) :: rest) = (key, w) :: rest.kept keeps :=
  List.takeWhile_cons_of_pos h

theorem kept_cons_of_neg (h : keeps key = false) : kept keeps ((key, w) :: rest) = [] :=
  List.takeWhile_cons_of_neg (by simp [h])

theorem behind_cons_self : behind key ((key, w) :: rest) = rest := by
  rw [behind, List.dropWhile_cons_of_neg (by simp)]
  rfl

theorem behind_cons_of_ne (h : key' ≠ key) : behind key ((key', w) :: rest) = behind key rest := by
  rw [behind, List.dropWhile_cons_of_pos (by simpa using h), behind]

theorem set_cons_self (value : Text) : Attributes.set key value ((key, w) :: rest) = (key, value) :: rest := by
  rw [Attributes.set, if_pos (by simp)]

theorem set_cons_of_ne (h : key' ≠ key) (value : Text) :
    Attributes.set key value ((key', w) :: rest) = (key', w) :: Attributes.set key value rest := by
  rw [Attributes.set, if_neg (by simpa using h)]

theorem reaches_cons_self (hKey : keeps key = true) : Reaches keeps key ((key, w) :: rest) :=
  .inr ⟨(key, w), by rw [kept_cons_of_pos _ _ hKey]; exact List.mem_cons_self, rfl⟩

theorem reaches_cons_of_pos (hKeeps : keeps key' = true) (h : key' ≠ key) :
    Reaches keeps key ((key', w) :: rest) ↔ Reaches keeps key rest := by
  simp [Reaches, kept_cons_of_pos _ _ hKeeps, h]

/-- Nothing behind an attribute that ends the tag is reached. -/
theorem not_reaches_cons (hKeeps : keeps key' = false) : ¬Reaches keeps key ((key', w) :: rest) := by
  simp [Reaches, kept_cons_of_neg _ _ hKeeps]

end Cons

/-- The attribute that is found under a key that was set: the value set, unless an attribute further behind counts. -/
theorem last?_kept_set (hKey : keeps key = true) (value : Text) (pairs : Attributes) (v : Text) :
    ((pairs.set key value).kept keeps).last? key = some v ↔
      pairs.Reaches keeps key ∧ ((behind key (pairs.kept keeps)).last? key).getD value = v := by
  induction pairs with
  | nil =>
      have hReaches : Reaches keeps key [] := .inl rfl
      rw [Attributes.set, kept_cons_of_pos _ _ hKey, last?_cons_self, Option.some_inj, and_iff_right hReaches]
      rfl
  | cons pair rest ih =>
      obtain ⟨k, w⟩ := pair
      by_cases hSame : k = key
      · subst hSame
        rw [set_cons_self, kept_cons_of_pos _ _ hKey, kept_cons_of_pos _ _ hKey, behind_cons_self, last?_cons_self,
          Option.some_inj, and_iff_right (reaches_cons_self w rest hKey)]
      · rw [set_cons_of_ne _ _ hSame]
        cases hKeeps : keeps k with
        | true =>
            rw [kept_cons_of_pos _ _ hKeeps, kept_cons_of_pos _ _ hKeeps, last?_cons_of_ne _ _ hSame,
              behind_cons_of_ne _ _ hSame, reaches_cons_of_pos _ _ hKeeps hSame, ih]
        | false =>
            rw [kept_cons_of_neg _ _ hKeeps]
            have hNone : last? [] key ≠ some v := by simp [last?]
            exact iff_of_false hNone fun h => not_reaches_cons w rest hKeeps h.1

/-- Setting one key changes nothing about what another shows. -/
theorem last?_kept_set_of_ne (hOther : key' ≠ key) (hKey' : keeps key' = true) (value : Text) (pairs : Attributes) :
    ((pairs.set key' value).kept keeps).last? key = (pairs.kept keeps).last? key := by
  induction pairs with
  | nil => rw [Attributes.set, kept_cons_of_pos _ _ hKey', last?_cons_of_ne _ _ hOther]
  | cons pair rest ih =>
      obtain ⟨k, w⟩ := pair
      by_cases hSame : k = key'
      · subst hSame
        rw [set_cons_self, kept_cons_of_pos _ _ hKey', kept_cons_of_pos _ _ hKey', last?_cons_of_ne _ _ hOther,
          last?_cons_of_ne _ _ hOther]
      · rw [set_cons_of_ne _ _ hSame]
        cases hKeeps : keeps k with
        | false => rw [kept_cons_of_neg _ _ hKeeps, kept_cons_of_neg _ _ hKeeps]
        | true =>
            rw [kept_cons_of_pos _ _ hKeeps, kept_cons_of_pos _ _ hKeeps]
            by_cases hHere : k = key
            · subst hHere
              rw [last?_cons_self, last?_cons_self, ih]
            · rw [last?_cons_of_ne _ _ hHere, last?_cons_of_ne _ _ hHere, ih]

/-- Setting an attribute of another key changes neither where an attribute is set nor what stands behind it. -/
theorem last?_kept_set_set (hOther : key' ≠ key) (hKey : keeps key = true) (hKey' : keeps key' = true)
    (value value' : Text) (pairs : Attributes) :
    (((pairs.set key' value').set key value).kept keeps).last? key =
      ((pairs.set key value).kept keeps).last? key := by
  induction pairs with
  | nil =>
      rw [Attributes.set, set_cons_of_ne _ _ hOther, kept_cons_of_pos _ _ hKey', last?_cons_of_ne _ _ hOther]
  | cons pair rest ih =>
      obtain ⟨k, w⟩ := pair
      by_cases hSame : k = key'
      · subst hSame
        rw [set_cons_self, set_cons_of_ne _ _ hOther, set_cons_of_ne _ _ hOther, kept_cons_of_pos _ _ hKey',
          kept_cons_of_pos _ _ hKey', last?_cons_of_ne _ _ hOther, last?_cons_of_ne _ _ hOther]
      · rw [set_cons_of_ne _ _ hSame]
        by_cases hHere : k = key
        · subst hHere
          rw [set_cons_self, set_cons_self, kept_cons_of_pos _ _ hKey, kept_cons_of_pos _ _ hKey, last?_cons_self,
            last?_cons_self, last?_kept_set_of_ne hOther hKey']
        · rw [set_cons_of_ne _ _ hHere, set_cons_of_ne _ _ hHere]
          cases hKeeps : keeps k with
          | true =>
              rw [kept_cons_of_pos _ _ hKeeps, kept_cons_of_pos _ _ hKeeps, last?_cons_of_ne _ _ hHere,
                last?_cons_of_ne _ _ hHere, ih]
          | false => rw [kept_cons_of_neg _ _ hKeeps, kept_cons_of_neg _ _ hKeeps]

theorem last?_kept_merge_of_ne (hOther : ∀ extra ∈ extras, extra.1 ≠ key ∧ keeps extra.1 = true)
    (pairs : Attributes) : ((pairs.merge extras).kept keeps).last? key = (pairs.kept keeps).last? key := by
  induction extras generalizing pairs with
  | nil => rfl
  | cons extra rest ih =>
      obtain ⟨⟨hKey, hKeeps⟩, hRest⟩ := List.forall_mem_cons.mp hOther
      exact (ih hRest _).trans (last?_kept_set_of_ne hKey hKeeps _ pairs)

/-- Of attributes of different keys that are set one after another, each is found as if it were set alone. -/
theorem last?_kept_merge (hApart : (extras.map Prod.fst).Nodup) (hKeeps : ∀ extra ∈ extras, keeps extra.1 = true)
    (hMember : (key, value) ∈ extras) (pairs : Attributes) :
    ((pairs.merge extras).kept keeps).last? key = ((pairs.set key value).kept keeps).last? key := by
  induction extras generalizing pairs with
  | nil => cases hMember
  | cons extra rest ih =>
      obtain ⟨k, w⟩ := extra
      obtain ⟨hHere, hKeepsRest⟩ := List.forall_mem_cons.mp hKeeps
      obtain ⟨hNew, hApartRest⟩ := List.nodup_cons.mp hApart
      have hMerge : pairs.merge ((k, w) :: rest) = (pairs.set k w).merge rest := rfl
      rw [hMerge]
      rcases List.mem_cons.mp hMember with hFirst | hLater
      · obtain ⟨rfl, rfl⟩ := Prod.mk.inj hFirst
        refine last?_kept_merge_of_ne (fun extra hExtra => ⟨?_, hKeepsRest extra hExtra⟩) _
        rintro rfl
        exact hNew (List.mem_map.mpr ⟨extra, hExtra, rfl⟩)
      · have hOther : k ≠ key := by
          rintro rfl
          exact hNew (List.mem_map.mpr ⟨_, hLater, rfl⟩)
        rw [ih hApartRest hKeepsRest hLater, last?_kept_set_set hOther (hKeepsRest _ hLater) hHere]

end Markup.Attributes

namespace Component

/-- Names of attributes that JSX writes as they are, too. -/
structure IsPlainName (key : Text) : Prop where
  hyphen : '-' ∈ key
  style : key ≠ "style".toList
  same : camelAttribute key = key

theorem equals_not_mem_camelAttribute {key : Text} (h : '=' ∉ key) : '=' ∉ camelAttribute key :=
  fun hMember => h (mem_camelAttribute hMember (by decide) (by decide) (by decide))

/-- A name with a hyphen is written for itself alone. -/
theorem camelAttribute_eq_iff {key name : Text} (h : IsPlainName name) : camelAttribute key = name ↔ key = name := by
  constructor
  · intro hSame
    rw [camelAttribute] at hSame
    split at hSame
    · exact hSame
    · have hHyphen := h.hyphen
      rw [← hSame] at hHyphen
      split at hHyphen
      · exact absurd hHyphen (by decide)
      · exact absurd rfl (mem_camelFrom hHyphen (by decide) (by decide) (by decide)).2.1
  · rintro rfl
    exact h.same

end Component

namespace Framework

open Component

/-- An attribute as it is written: as a property of an object or as an attribute of JSX. -/
def writtenPair (framework : Framework) (pair : Text × Text) : Text :=
  match framework with
  | .vue => objectKey pair.1 ++ ": ".toList ++ stringLiteral (decodeEntities pair.2)
  | _ => jsxAttribute framework.attributeCase pair.1 pair.2

/-- An attribute as its target reads it: entities stand for characters in JSX, and the value is a string in a call. -/
def readPair? (framework : Framework) (s : Text) : Option (Text × Text) :=
  match framework with
  | .vue => do
    let (key, s) ← propertyWord? s
    let (value, _) ← literal? (← Text.dropFront? ": ".toList s)
    return (key, value)
  | _ =>
    match Text.splitOnce? '=' s with
    | some (key, '"' :: quoted) => some (key, decodeEntities (quoted.takeWhile (· != '"')))
    | _ => none

/-- What a target finds under a key. -/
def shown? (framework : Framework) (attributes : Attributes) (key : Text) : Option Text :=
  Attributes.last? ((attributes.map framework.writtenPair).filterMap framework.readPair?) key

/-- A property of a call is read as its key and value. -/
theorem readPair?_property {key value : Text} (hKey : ∀ c ∈ key, isKeyChar c = true) :
    readPair? .vue (objectKey key ++ ": ".toList ++ stringLiteral value) = some (key, value) := by
  have hText : objectKey key ++ ": ".toList ++ stringLiteral value =
      objectKey key ++ ':' :: ([' '] ++ stringLiteral value) := by simp
  have hColon : Text.dropFront? ": ".toList (':' :: ([' '] ++ stringLiteral value)) = some (stringLiteral value) :=
    Text.dropFront?_append ": ".toList _
  have hLiteral := literal?_stringLiteral value []
  rw [List.append_nil] at hLiteral
  rw [hText, readPair?, propertyWord?_objectKey hKey]
  simp only [Option.bind_eq_bind, Option.bind_some, hColon, hLiteral]
  rfl

/-- An attribute in double quotes is read with its value decoded. -/
theorem readPair?_quoted {framework : Framework} (hJsx : framework ≠ .vue) {key value : Text} (hKey : '=' ∉ key)
    (hValue : '"' ∉ value) :
    framework.readPair? (key ++ ("=\"".toList ++ value ++ ['"'])) = some (key, decodeEntities value) := by
  have hText : key ++ ("=\"".toList ++ value ++ ['"']) = key ++ '=' :: '"' :: (value ++ ['"']) := by simp
  have hFree : ∀ c ∈ value, (c != '"') = true := by
    intro c hc
    have hOther : c ≠ '"' := fun h => hValue (h ▸ hc)
    simpa using hOther
  have hTake : (value ++ ['"']).takeWhile (· != '"') = value := by
    rw [List.takeWhile_append_of_pos hFree, List.takeWhile_cons_of_neg (by decide), List.append_nil]
  cases framework with
  | vue => exact absurd rfl hJsx
  | react | preact | solid => simp only [hText, readPair?, Text.splitOnce?_append hKey, hTake]

/-- A style is written as an object, not as a quoted value. -/
theorem readPair?_style {framework : Framework} (hJsx : framework ≠ .vue) (value : Text) :
    framework.readPair? ("style=".toList ++ inBraces value) = none := by
  have hSplit : Text.splitOnce? '=' ("style".toList ++ '=' :: inBraces value) = some ("style".toList, inBraces value) :=
    Text.splitOnce?_append (by decide) _
  cases framework with
  | vue => exact absurd rfl hJsx
  | react | preact | solid =>
      show (match Text.splitOnce? '=' ("style".toList ++ '=' :: inBraces value) with
        | some (key, '"' :: quoted) => some (key, decodeEntities (quoted.takeWhile (· != '"')))
        | _ => none) = none
      rw [hSplit]
      rfl

/-- A written attribute is read under its own name, or not at all. -/
theorem readPair?_writtenPair (framework : Framework) {key name value : Text} (hName : IsPlainName name)
    (hKey : ∀ c ∈ key, isKeyChar c = true) (hValue : framework ≠ .vue → '"' ∉ value) :
    framework.readPair? (framework.writtenPair (key, value)) = none ∧ key ≠ name ∨
      ∃ found, framework.readPair? (framework.writtenPair (key, value)) = some (found, decodeEntities value) ∧
        (found = name ↔ key = name) := by
  have hEquals : '=' ∉ key := fun hMember => absurd (hKey _ hMember) (by decide)
  cases framework with
  | vue => exact .inr ⟨key, readPair?_property hKey, Iff.rfl⟩
  | solid => exact .inr ⟨key, readPair?_quoted (by decide) hEquals (hValue (by decide)), Iff.rfl⟩
  | react | preact =>
      by_cases hStyle : key = "style".toList
      · refine .inl ⟨?_, fun hSame => hName.style (hSame ▸ hStyle)⟩
        simp only [writtenPair, attributeCase, jsxAttribute]
        rw [if_pos (by simpa using hStyle)]
        exact readPair?_style (by decide) _
      · refine .inr ⟨camelAttribute key, ?_, camelAttribute_eq_iff hName⟩
        simp only [writtenPair, attributeCase, jsxAttribute]
        rw [if_neg (by simpa using hStyle)]
        exact readPair?_quoted (by decide) (equals_not_mem_camelAttribute hEquals) (hValue (by decide))

/-- Targets find what the last attribute of a name says. -/
theorem shown?_eq (framework : Framework) {name : Text} (hName : IsPlainName name) {attributes : Attributes}
    (hKeyed : attributes.Keyed) (hUnquoted : framework ≠ .vue → attributes.Unquoted) :
    framework.shown? attributes name = (attributes.last? name).map decodeEntities := by
  induction attributes with
  | nil => rfl
  | cons pair rest ih =>
      obtain ⟨key, value⟩ := pair
      obtain ⟨hKey, hKeyedRest⟩ := List.forall_mem_cons.mp hKeyed
      have hValue : framework ≠ .vue → '"' ∉ value := fun hJsx => (List.forall_mem_cons.mp (hUnquoted hJsx)).1
      have hRest := ih hKeyedRest fun hJsx => (List.forall_mem_cons.mp (hUnquoted hJsx)).2
      rw [shown?] at hRest
      rw [shown?, List.map_cons]
      rcases readPair?_writtenPair framework hName hKey.2 hValue with ⟨hNone, hOther⟩ | ⟨found, hFound, hSame⟩
      · rw [List.filterMap_cons_none hNone, hRest, Attributes.last?_cons_of_ne _ _ hOther]
      · rw [List.filterMap_cons_some hFound]
        by_cases hHere : key = name
        · obtain rfl := hSame.mpr hHere
          subst hHere
          rw [Attributes.last?_cons_self, Attributes.last?_cons_self, hRest]
          cases Attributes.last? rest key <;> rfl
        · rw [Attributes.last?_cons_of_ne _ _ hHere, Attributes.last?_cons_of_ne _ _ fun h => hHere (hSame.mp h), hRest]

def spelled (framework : Framework) (name : Text) : Text :=
  match framework with
  | .vue => name
  | _ => escapeAttribute name

/-- Which keys keep a tag open when its attributes are written anew. -/
def keeps (framework : Framework) (key : Text) : Bool :=
  match framework with
  | .vue => true
  | _ => !key.contains '>'

end Framework

namespace Markup

/-- The attributes in the opening tag of a root. -/
def rootAttributes (markup : Text) : Attributes :=
  ((OpenTag.read? (Text.trim markup)).map fun tag => attributesIn tag.attributes).getD []

/-- The attributes of a root that is read are those of its tag. -/
theorem attributes_of_readRoot {markup : Text} {root : Element} (h : readRoot markup = .ok root) :
    root.attributes = rootAttributes markup := by
  obtain ⟨found, hFound, h⟩ := bind_eq_ok.mp h
  rw [readElement?] at hFound
  rw [rootAttributes]
  split at hFound
  · cases hFound
    cases h
  · rename_i tag hTag
    rw [hTag]
    dsimp only at hFound
    rw [attributesIn_withoutSlash] at hFound
    split at hFound
    · cases hFound
      cases h
      rfl
    · obtain ⟨children, -, hFound⟩ := bind_eq_ok.mp hFound
      cases hFound
      cases h
      rfl

theorem rootAttributes_of_rootTag {markup : Text} {tag : NamedTag} (h : Component.rootTag? markup = some tag) :
    rootAttributes markup = attributesIn tag.attributes := by
  obtain ⟨hText, hEnds⟩ := rootTag?_eq_some h
  have hTag : OpenTag.read? ("<svg".toList ++ (tag.attributes ++ '>' :: Text.trimEnd tag.rest)) =
      some ⟨"svg".toList, tag.attributes, Text.trimEnd tag.rest⟩ := OpenTag.read?_endsName isTagName_svg hEnds _
  rw [rootAttributes, hText, trim_svg, hTag]
  rfl

theorem keyed_rootAttributes (markup : Text) : (rootAttributes markup).Keyed := by
  rw [rootAttributes]
  cases OpenTag.read? (Text.trim markup) with
  | none => exact List.forall_mem_nil _
  | some tag => exact keyed_attributesIn tag.attributes

end Markup

namespace Framework

open Component

variable {framework : Framework} {optimize : Optimizer} {spec : Spec} {typescript : Bool}
  {markup optimized component : Text}

theorem keyed_extraAttributes (spec : Spec) : spec.extraAttributes.Keyed := fun _ hPair =>
  ⟨(isKey_of_mem_extraAttributes hPair).nonempty, (isKey_of_mem_extraAttributes hPair).chars⟩

/-- The attributes of a root are those that the markup has, merged with those that are asked for. -/
structure Attributed (framework : Framework) (spec : Spec) (optimized : Text) (attributes : Attributes) : Prop where
  merged : spec.extraAttributes ≠ [] → attributes =
    ((rootAttributes optimized).merge (spec.extraAttributes.mapValues framework.spelled)).kept framework.keeps
  keyed : attributes.Keyed
  unquoted : framework ≠ .vue → attributes.Unquoted

/-- The attributes of an annotated root are those it had, with what was set. -/
theorem attributed_annotatedRoot (hJsx : framework ≠ .vue) {root : Element}
    (hRoot : annotatedRoot optimize spec markup = .ok root) (hSome : spec.componentName ≠ [])
    (hTrimmed : Trimmed spec.componentName) :
    ∃ optimized, optimize markup = .ok optimized ∧ framework.Attributed spec optimized root.attributes := by
  obtain ⟨optimized, tag, hOptimized, hTag, hRead⟩ := annotatedRoot_eq_ok hRoot
  obtain ⟨tag', hTag', hAttributed⟩ := exists_rootTag_attributed spec hTag
  have hAttributes : root.attributes = attributesIn tag'.attributes := by
    cases hTitle : spec.titleText? with
    | none =>
        rw [hTitle] at hRead
        rw [attributes_of_readRoot hRead, rootAttributes_of_rootTag hTag']
    | some title =>
        rw [hTitle] at hRead
        exact (beginsWithTitle_withTitle hTag' (isContent_titleText hTitle hSome hTrimmed) hRead).2.1
  refine ⟨optimized, hOptimized, ?_, ?_, ?_⟩
  · intro hExtras
    rw [hAttributes, hAttributed, attributedPairs, if_neg (by simpa using hExtras), rootAttributes_of_rootTag hTag]
    cases framework with
    | vue => exact absurd rfl hJsx
    | react | preact | solid => rfl
  · rw [hAttributes]
    exact keyed_attributesIn _
  · intro _
    rw [hAttributes]
    exact unquoted_attributesIn _

/-- The same holds of a tree that is written as calls. -/
theorem attributed_annotatedCallTree {tree : CallTree} (hTree : annotatedCallTree optimize spec markup = .ok tree) :
    ∃ optimized, optimize markup = .ok optimized ∧ Framework.vue.Attributed spec optimized tree.root.attributes := by
  obtain ⟨optimized, e, hOptimized, hRead, -, hRoot⟩ := annotatedCallTree_eq_ok hTree
  have hSame : spec.extraAttributes.mapValues Framework.vue.spelled = spec.extraAttributes := List.map_id _
  have hAll : ∀ attributes : Attributes, attributes.kept Framework.vue.keeps = attributes :=
    fun attributes => List.takeWhile_eq_self_iff.mpr fun _ _ => rfl
  rw [hRoot, attributes_of_readRoot hRead]
  refine ⟨optimized, hOptimized, fun _ => by rw [hAll, hSame], ?_, fun h => absurd rfl h⟩
  exact Attributes.forall_merge (keyed_rootAttributes _) (keyed_extraAttributes spec)

/-- The attribute that is set comes through: the tag is not cut short in front of it, no attribute of its key further
behind says otherwise, and no entity is read in a name that was not spelled with entities. -/
def ShowsAttribute (framework : Framework) (pairs : Attributes) (key name : Text) : Prop :=
  pairs.Reaches framework.keeps key ∧
    match (Attributes.behind key (pairs.kept framework.keeps)).last? key with
    | some value => decodeEntities value = name
    | none => framework = .vue → ∀ entity ∈ entities, ¬entity.1 <:+: name

/-- No attribute is set twice. -/
theorem nodup_keys_extraAttributes (spec : Spec) : (spec.extraAttributes.map Prod.fst).Nodup := by
  rw [Spec.extraAttributes]
  generalize (spec.trackSource && !spec.iconName.isEmpty) = tracked
  cases spec.accessibility <;> cases tracked <;> simp

theorem keeps_of_mem_extraAttributes {pair : Text × Text} (framework : Framework)
    (h : pair ∈ spec.extraAttributes) : framework.keeps pair.1 = true := by
  have hFree := (isKey_of_mem_extraAttributes h).angles.2
  cases framework with
  | vue => rfl
  | react | preact | solid => simpa [keeps] using hFree

/-- A name is shown as it was spelled, unless calls decode an entity in it. -/
theorem decodeEntities_spelled (framework : Framework) (name : Text) :
    decodeEntities (framework.spelled name) = name ↔
      (framework = .vue → ∀ entity ∈ entities, ¬entity.1 <:+: name) := by
  cases framework with
  | vue =>
      rw [← decodeEntities_eq_self_iff]
      exact ⟨fun h _ => h, fun h => h rfl⟩
  | react | preact | solid => exact iff_of_true (decodeEntities_escapeAttribute name) fun h => nomatch h

/-- An attribute that was set shows its name exactly if the attributes in front of it let it through. -/
theorem shown?_iff {attributes : Attributes} {key name : Text} (h : framework.Attributed spec optimized attributes)
    (hMember : (key, name) ∈ spec.extraAttributes) (hPlain : IsPlainName key) :
    framework.shown? attributes key = some name ↔
      framework.ShowsAttribute (rootAttributes optimized) key name := by
  have hKeys : (spec.extraAttributes.mapValues framework.spelled).map Prod.fst = spec.extraAttributes.map Prod.fst := by
    simp [Attributes.mapValues]
  have hKeeps : ∀ extra ∈ spec.extraAttributes.mapValues framework.spelled, framework.keeps extra.1 = true := by
    intro extra hExtra
    obtain ⟨pair, hPair, rfl⟩ := List.mem_map.mp hExtra
    have hHere := keeps_of_mem_extraAttributes framework hPair
    exact hHere
  have hSpelled : (key, framework.spelled name) ∈ spec.extraAttributes.mapValues framework.spelled :=
    List.mem_map.mpr ⟨_, hMember, rfl⟩
  have hFound := Attributes.last?_kept_merge (hKeys ▸ nodup_keys_extraAttributes spec) hKeeps hSpelled
    (rootAttributes optimized)
  rw [← h.merged (List.ne_nil_of_mem hMember)] at hFound
  rw [shown?_eq framework hPlain h.keyed h.unquoted, hFound, Option.map_eq_some_iff]
  simp only [Attributes.last?_kept_set (keeps_of_mem_extraAttributes framework hMember)]
  have hValue : ∀ {reaches : Prop} {value : Text}, (∃ v, (reaches ∧ value = v) ∧ decodeEntities v = name) ↔
      reaches ∧ decodeEntities value = name := by
    intro reaches value
    constructor
    · rintro ⟨v, ⟨hReaches, rfl⟩, hName⟩
      exact ⟨hReaches, hName⟩
    · rintro ⟨hReaches, hName⟩
      exact ⟨value, ⟨hReaches, rfl⟩, hName⟩
  rw [hValue, ShowsAttribute]
  cases (Attributes.behind key ((rootAttributes optimized).kept framework.keeps)).last? key with
  | some value => rfl
  | none => rw [Option.getD_none, decodeEntities_spelled]

def writtenText (framework : Framework) (content : Text) : Text :=
  match framework with
  | .vue => callNode callConstructor (.text content)
  | _ => jsxText content

/-- A text between tags as its target reads it: a string literal as the string, and anything else by its entities. -/
def readText? (framework : Framework) (s : Text) : Option Text :=
  match framework with
  | .vue => (literal? s).map (·.1)
  | _ =>
    match Text.dropFront? ['\x7b'] s with
    | some rest => (literal? rest).map (·.1)
    | none => some (decodeEntities s)

/-- What a target finds in the title with which an element begins. -/
def shownTitle? (framework : Framework) (e : Element) : Option Text :=
  match e.children with
  | .element tag _ [.text content] _ :: _ =>
    if tag == "title".toList then framework.readText? (framework.writtenText content) else none
  | _ => none

/-- A title comes through: into markup where the root takes it, unless it is spelled with entities and in a string
literal at once; and into a tree where no entity is read in it. -/
def ShowsTitle (framework : Framework) (spec : Spec) (optimized : Text) : Prop :=
  let name := readableName spec.componentName
  match framework with
  | .vue => ∀ entity ∈ entities, ¬entity.1 <:+: name
  | .react | .preact | .solid => TakesTitle (attributed spec optimized) ∧
      ¬((∃ c ∈ name, c = '\x7b' ∨ c = '\x7d') ∧ ∃ c ∈ name, c = '&' ∨ c = '<' ∨ c = '>')

theorem any_escapeText (name : Text) :
    ((escapeText name).any fun c => c == '\x7b' || c == '\x7d' || c == '<' || c == '>') = true ↔
      ∃ c ∈ name, c = '\x7b' ∨ c = '\x7d' := by
  simp only [List.any_eq_true, Bool.or_eq_true, beq_iff_eq]
  constructor
  · rintro ⟨c, hc, ((rfl | rfl) | rfl) | rfl⟩
    · exact ⟨_, (mem_escapeText_iff (by decide)).mp hc, .inl rfl⟩
    · exact ⟨_, (mem_escapeText_iff (by decide)).mp hc, .inr rfl⟩
    · exact absurd hc (angle_not_mem_escapeText name)
    · exact absurd hc (greater_not_mem_escapeText name)
  · rintro ⟨c, hc, rfl | rfl⟩
    · exact ⟨_, (mem_escapeText_iff (by decide)).mpr hc, .inl (.inl (.inl rfl))⟩
    · exact ⟨_, (mem_escapeText_iff (by decide)).mpr hc, .inl (.inl (.inr rfl))⟩

/-- A title is read back from JSX unless it is spelled with entities in a string literal. -/
theorem readText?_jsxText {framework : Framework} (hJsx : framework ≠ .vue) (name : Text) :
    framework.readText? (jsxText (escapeText name)) = some name ↔
      ¬((∃ c ∈ name, c = '\x7b' ∨ c = '\x7d') ∧ ∃ c ∈ name, c = '&' ∨ c = '<' ∨ c = '>') := by
  rw [jsxText]
  split
  · rename_i hAny
    have hRead : framework.readText? (inBraces (stringLiteral (escapeText name))) = some (escapeText name) := by
      have hBrace : Text.dropFront? ['\x7b'] (inBraces (stringLiteral (escapeText name))) =
          some (stringLiteral (escapeText name) ++ ['\x7d']) := Text.dropFront?_append ['\x7b'] _
      have hLiteral := literal?_stringLiteral (escapeText name) ['\x7d']
      cases framework with
      | vue => exact absurd rfl hJsx
      | react | preact | solid =>
          simp only [readText?, hBrace, hLiteral]
          rfl
    rw [hRead, Option.some_inj, escapeText_eq_self_iff, and_iff_right ((any_escapeText name).mp hAny)]
    simp
  · rename_i hAny
    have hNoBrace := mt (any_escapeText name).mpr hAny
    have hFirst : Text.dropFront? ['\x7b'] (escapeText name) = none := by
      cases hFront : Text.dropFront? ['\x7b'] (escapeText name) with
      | none => rfl
      | some rest =>
          have hMember : '\x7b' ∈ escapeText name := by
            rw [Text.eq_append_of_dropFront? hFront]
            exact List.mem_cons_self
          exact absurd ⟨_, (mem_escapeText_iff (by decide)).mp hMember, .inl rfl⟩ hNoBrace
    have hRead : framework.readText? (escapeText name) = some name := by
      cases framework with
      | vue => exact absurd rfl hJsx
      | react | preact | solid => simp only [readText?, hFirst, decodeEntities_escapeText]
    exact iff_of_true hRead fun h => hNoBrace h.1

theorem shownTitle?_titleNode {e : Element} {content : Text} {rest : List Node}
    (h : e.children = titleNode content :: rest) :
    framework.shownTitle? e = framework.readText? (framework.writtenText content) := by
  rw [shownTitle?, h, titleNode]
  exact if_pos rfl

/-- In markup of scripts, a title shows its name exactly if it was taken and is not written with both braces and
entities. -/
theorem shownTitle?_of_beginsWithTitle (hJsx : framework ≠ .vue) {name : Text} {taken : Prop} {e : Element}
    (h : BeginsWithTitle name taken e) :
    framework.shownTitle? e = some name ↔
      taken ∧ ¬((∃ c ∈ name, c = '\x7b' ∨ c = '\x7d') ∧ ∃ c ∈ name, c = '&' ∨ c = '<' ∨ c = '>') := by
  by_cases hTaken : taken
  · obtain ⟨rest, hFirst⟩ := h.title hTaken
    have hWritten : framework.writtenText (escapeText name) = jsxText (escapeText name) := by
      cases framework with
      | vue => exact absurd rfl hJsx
      | react | preact | solid => rfl
    rw [shownTitle?_titleNode hFirst, hWritten, readText?_jsxText hJsx, and_iff_right hTaken]
  · have hNone : framework.shownTitle? e = none := by rw [shownTitle?, h.empty hTaken]
    simp [hNone, hTaken]

/-- In calls, a title shows its name exactly if no entity occurs in it. -/
theorem shownTitle?_vue {e : Element} {name : Text} {rest : List Node} (h : e.children = titleNode name :: rest) :
    Framework.vue.shownTitle? e = some name ↔ ∀ entity ∈ entities, ¬entity.1 <:+: name := by
  have hLiteral := literal?_stringLiteral (decodeEntities name) []
  rw [List.append_nil] at hLiteral
  have hRead : Framework.vue.readText? (Framework.vue.writtenText name) = some (decodeEntities name) := by
    rw [readText?, writtenText, callNode, hLiteral]
    rfl
  rw [shownTitle?_titleNode h, hRead, Option.some_inj, decodeEntities_eq_self_iff]

theorem isPlainName_icon : IsPlainName "data-icon".toList := ⟨by decide, by decide, by decide⟩

theorem isPlainName_label : IsPlainName "aria-label".toList := ⟨by decide, by decide, by decide⟩

theorem icon_mem_extraAttributes (hTracked : spec.trackSource = true) (hIcon : spec.iconName ≠ []) :
    ("data-icon".toList, spec.iconName) ∈ spec.extraAttributes := by
  have hAsked : (spec.trackSource && !spec.iconName.isEmpty) = true := by simp [hTracked, hIcon]
  rw [Spec.extraAttributes, if_pos hAsked]
  exact List.mem_append_right _ List.mem_cons_self

theorem label_mem_extraAttributes (hKind : spec.accessibility = .img) :
    ("aria-label".toList, readableName spec.componentName) ∈ spec.extraAttributes := by
  rw [Spec.extraAttributes, hKind]
  exact List.mem_append_left _ (List.mem_cons_of_mem _ List.mem_cons_self)

/-- The title of a rendered root is read back just where it comes through. -/
theorem shownTitle?_iff {root : Element} (hRoot : Pieces.treeOf framework optimize spec markup = .ok root)
    (hKind : spec.accessibility = .title) (hSome : spec.componentName ≠ []) (hTrimmed : Trimmed spec.componentName) :
    ∃ optimized, optimize markup = .ok optimized ∧
      (framework.shownTitle? root = some (readableName spec.componentName) ↔
        framework.ShowsTitle spec optimized) := by
  have hTitle : spec.titleText? = some (readableName spec.componentName) := if_pos hKind
  cases framework with
  | vue =>
      obtain ⟨tree, hTree, hSame⟩ := bind_eq_ok.mp hRoot
      cases hSame
      obtain ⟨optimized, e, hOptimized, -, -, hTreeRoot⟩ := annotatedCallTree_eq_ok hTree
      have hChildren : tree.root.children = titleNode (readableName spec.componentName) :: e.children := by
        rw [hTreeRoot, hTitle]
        rfl
      exact ⟨optimized, hOptimized, shownTitle?_vue hChildren⟩
  | react | preact | solid =>
      obtain ⟨optimized, hOptimized, -, hBegins⟩ := beginsWithTitle_annotatedRoot hRoot hKind hSome hTrimmed
      exact ⟨optimized, hOptimized, shownTitle?_of_beginsWithTitle (by decide) hBegins⟩

/-- The attributes of a rendered root are those of the optimized markup, merged with those that are asked for. -/
theorem attributed_treeOf {root : Element} (hRoot : Pieces.treeOf framework optimize spec markup = .ok root)
    (hSome : spec.componentName ≠ []) (hTrimmed : Trimmed spec.componentName) :
    ∃ optimized, optimize markup = .ok optimized ∧ framework.Attributed spec optimized root.attributes := by
  cases framework with
  | vue =>
      obtain ⟨tree, hTree, hSame⟩ := bind_eq_ok.mp hRoot
      cases hSame
      exact attributed_annotatedCallTree hTree
  | react | preact | solid => exact attributed_annotatedRoot (by decide) hRoot hSome hTrimmed

/-- Each name that a spec has put into a component is read back from what is rendered just where it comes through: the
icon's name and the readable name from attributes of the root, and the readable name from its title. -/
theorem names_shown_iff (h : framework.transform optimize spec typescript markup = .ok component)
    (hSome : spec.componentName ≠ []) (hTrimmed : Trimmed spec.componentName) :
    ∃ optimized root, optimize markup = .ok optimized ∧ Pieces.treeOf framework optimize spec markup = .ok root ∧
      framework.body optimize spec markup = .ok (framework.rendered spec root) ∧
      (spec.trackSource = true → spec.iconName ≠ [] →
        (framework.shown? root.attributes "data-icon".toList = some spec.iconName ↔
          framework.ShowsAttribute (rootAttributes optimized) "data-icon".toList spec.iconName)) ∧
      (spec.accessibility = .img →
        (framework.shown? root.attributes "aria-label".toList = some (readableName spec.componentName) ↔
          framework.ShowsAttribute (rootAttributes optimized) "aria-label".toList
            (readableName spec.componentName))) ∧
      (spec.accessibility = .title →
        (framework.shownTitle? root = some (readableName spec.componentName) ↔
          framework.ShowsTitle spec optimized)) := by
  obtain ⟨root, hRoot, hBody⟩ := exists_treeOf h
  obtain ⟨optimized, hOptimized, hAttributed⟩ := attributed_treeOf hRoot hSome hTrimmed
  refine ⟨optimized, root, hOptimized, hRoot, hBody, ?icon, ?label, ?title⟩
  case icon =>
    intro hTracked hIcon
    exact shown?_iff hAttributed (icon_mem_extraAttributes hTracked hIcon) isPlainName_icon
  case label =>
    intro hKind
    exact shown?_iff hAttributed (label_mem_extraAttributes hKind) isPlainName_label
  case title =>
    intro hKind
    obtain ⟨optimized', hOptimized', hTitle⟩ := shownTitle?_iff hRoot hKind hSome hTrimmed
    cases hOptimized.symm.trans hOptimized'
    exact hTitle

/-- A name that looks like an entity is escaped once and read back once. -/
theorem name_shown_in_jsx :
    ∃ root, Pieces.treeOf .solid canonicalOptimizer ⟨"A".toList, "a&lt;b".toList, .none, true, false, .inline⟩
        "<svg fill='none'/>".toList = .ok root ∧
      Framework.solid.shown? root.attributes "data-icon".toList = some "a&lt;b".toList := by
  have hOk : Framework.solid.transform canonicalOptimizer
      ⟨"A".toList, "a&lt;b".toList, .none, true, false, .inline⟩ false "<svg fill='none'/>".toList = .ok
        "A: (props) => (<svg fill=\"none\" data-icon=\"a&amp;lt;b\" \x7b...props\x7d />)".toList :=
    eq_ok_of_toOption (by decide +kernel)
  obtain ⟨optimized, root, hOptimized, hRoot, -, hIcon, -⟩ := names_shown_iff hOk (by decide) (by decide)
  cases hOptimized
  refine ⟨root, hRoot, (hIcon rfl (by decide)).mpr ⟨.inl (by decide +kernel), ?_⟩⟩
  have hNone : (Attributes.behind "data-icon".toList ((rootAttributes (canonical "<svg fill='none'/>".toList)).kept
      Framework.solid.keeps)).last? "data-icon".toList = none := by decide +kernel
  rw [hNone]
  exact fun hVue => nomatch hVue

/-- An entity in the name of an icon is read as a character where the name is put into a tree as it is. -/
theorem entity_not_shown_in_call :
    Framework.vue.transform canonicalOptimizer ⟨"A".toList, "a&amp;b".toList, .none, true, false, .inline⟩ false
        "<svg/>".toList = .ok "A: (props) => h(\"svg\", \x7b \"data-icon\": \"a&b\", ...props \x7d)".toList ∧
      ∃ root, Pieces.treeOf .vue canonicalOptimizer ⟨"A".toList, "a&amp;b".toList, .none, true, false, .inline⟩
          "<svg/>".toList = .ok root ∧
        Framework.vue.shown? root.attributes "data-icon".toList = some "a&b".toList :=
  ⟨eq_ok_of_toOption (by decide +kernel),
    ⟨"svg".toList, [("data-icon".toList, "a&amp;b".toList)], [], true⟩, rfl, by decide +kernel⟩

end Framework

end IconRegistry
