import IconRegistry.Proofs.Markup.Keeping
import IconRegistry.Proofs.Markup.Stripping

/-! What XML lets stand in front of a root: the declaration, comments, instructions, white space, and a document type
with an internal subset. Stripping drops all of it as long as each pass meets the marks it looks for only where they
begin what it drops, and no `>` stands within the document type. -/
namespace IconRegistry.Markup

open Text (Blanks Becomes)

structure XmlSpace where
  text : Text
  nonempty : text ≠ []
  white : ∀ c ∈ text, c.isWhitespace = true

/-- Comments neither hold two dashes nor end with one. -/
structure XmlComment where
  content : Text
  dashes : ¬"--".toList <:+: content ++ ['-']

def XmlComment.text (comment : XmlComment) : Text :=
  "<!--".toList ++ (comment.content ++ "-->".toList)

/-- Processing instructions. The XML declaration has their form. -/
structure XmlInstruction where
  target : Text
  data : Text
  isName : IsXmlName target
  apart : ∀ c, data.head? = some c → c.isWhitespace = true
  ending : ¬"?>".toList <:+: data

def XmlInstruction.text (instruction : XmlInstruction) : Text :=
  "<?".toList ++ (instruction.target ++ instruction.data ++ "?>".toList)

/-- What may stand anywhere between declarations. The target `xml` is kept for the XML declaration. -/
inductive Misc
  | space (space : XmlSpace)
  | comment (comment : XmlComment)
  | instruction (instruction : XmlInstruction) (free : instruction.target.map Char.toLower ≠ "xml".toList)

def Misc.text : Misc → Text
  | .space s => s.text
  | .comment c => c.text
  | .instruction i _ => i.text

structure XmlLiteral where
  quote : Char
  content : Text
  isQuote : quote = '"' ∨ quote = '\''
  free : quote ∉ content

def XmlLiteral.text (literal : XmlLiteral) : Text :=
  literal.quote :: (literal.content ++ [literal.quote])

inductive ExternalIdentifier
  | system (front : XmlSpace) (address : XmlLiteral)
  | publicId (front : XmlSpace) (identifier : XmlLiteral) (between : XmlSpace) (address : XmlLiteral)

def ExternalIdentifier.text : ExternalIdentifier → Text
  | .system front address => "SYSTEM".toList ++ front.text ++ address.text
  | .publicId front identifier between address =>
      "PUBLIC".toList ++ front.text ++ identifier.text ++ between.text ++ address.text

/-- Declarations are read no further than their quotation marks. -/
inductive DeclarationPiece
  | char (c : Char) (free : c ∉ "<>\"'".toList)
  | literal (literal : XmlLiteral)

def DeclarationPiece.text : DeclarationPiece → Text
  | .char c _ => [c]
  | .literal l => l.text

/-- Declarations of entities, elements, attributes and notations. -/
structure MarkupDeclaration where
  keyword : Text
  pieces : List DeclarationPiece
  known : keyword ∈ ["ENTITY".toList, "ELEMENT".toList, "ATTLIST".toList, "NOTATION".toList]

def MarkupDeclaration.text (declaration : MarkupDeclaration) : Text :=
  "<!".toList ++ declaration.keyword ++ declaration.pieces.flatMap DeclarationPiece.text ++ ['>']

inductive SubsetItem
  | misc (misc : Misc)
  | reference (name : Text) (isName : IsXmlName name)
  | declaration (declaration : MarkupDeclaration)

def SubsetItem.text : SubsetItem → Text
  | .misc m => m.text
  | .reference name _ => '%' :: (name ++ [';'])
  | .declaration d => d.text

/-- Document types, with identifiers and a subset if they have any. -/
structure XmlDoctype where
  front : XmlSpace
  name : Text
  isName : IsXmlName name
  identifier : Option (XmlSpace × ExternalIdentifier)
  back : Option XmlSpace
  subset : Option (List SubsetItem × Option XmlSpace)

namespace XmlDoctype

def identifierText (doctype : XmlDoctype) : Text :=
  doctype.identifier.elim [] fun (front, identifier) => front.text ++ identifier.text

def subsetText (doctype : XmlDoctype) : Text :=
  doctype.subset.elim [] fun (items, back) => '[' :: (items.flatMap SubsetItem.text ++ ']' :: back.elim [] XmlSpace.text)

/-- What stands between the keyword and the end. -/
def content (doctype : XmlDoctype) : Text :=
  doctype.front.text ++ doctype.name ++ doctype.identifierText ++ doctype.back.elim [] XmlSpace.text ++ doctype.subsetText

def text (doctype : XmlDoctype) : Text :=
  "<!".toList ++ "DOCTYPE".toList ++ (doctype.content ++ ">".toList)

end XmlDoctype

/-- Prologs of XML documents. -/
structure XmlProlog where
  declaration : Option { instruction : XmlInstruction // instruction.target = "xml".toList }
  front : List Misc
  doctype : Option (XmlDoctype × List Misc)

def XmlProlog.text (prolog : XmlProlog) : Text :=
  prolog.declaration.elim [] (fun declaration => declaration.val.text) ++ (prolog.front.flatMap Misc.text ++
    prolog.doctype.elim [] fun (doctype, back) => doctype.text ++ back.flatMap Misc.text)

/-- No comment has the mark of an instruction or of a document type in it. -/
def Misc.Unmixed : Misc → Prop
  | .comment c => ¬"<?".toList <:+: c.content ∧ ¬"<!DOCTYPE".toList <:+: c.content.map Char.toUpper
  | .space _ | .instruction _ _ => True

/-- A document type has no mark of an instruction, a document type or a comment in it. -/
structure XmlDoctype.Unmixed (doctype : XmlDoctype) : Prop where
  instruction : ¬"<?".toList <:+: doctype.content
  keyword : ¬"<!DOCTYPE".toList <:+: doctype.content.map Char.toUpper
  comment : ¬"<!--".toList <:+: doctype.content

/-- The marks that the passes look for stand only where they begin what is to be dropped. -/
structure XmlProlog.Unmixed (prolog : XmlProlog) : Prop where
  front : ∀ misc ∈ prolog.front, misc.Unmixed
  doctype : ∀ found ∈ prolog.doctype, found.1.Unmixed
  back : ∀ found ∈ prolog.doctype, ∀ misc ∈ found.2, misc.Unmixed

/-- The three passes turn a text into another one wherever it stands. -/
def StripsTo (s out : Text) : Prop :=
  ∃ first second, Becomes instructions.step s first ∧ Becomes doctypes.step first second ∧
    Becomes comments.step second out

section Stripping

variable {pass : Pass} {s t out out' : Text}

theorem StripsTo.nil : StripsTo [] [] :=
  ⟨[], [], .nil, .nil, .nil⟩

theorem StripsTo.append (h : StripsTo s out) (h' : StripsTo t out') : StripsTo (s ++ t) (out ++ out') := by
  obtain ⟨first, second, hFirst, hSecond, hThird⟩ := h
  obtain ⟨first', second', hFirst', hSecond', hThird'⟩ := h'
  exact ⟨first ++ first', second ++ second', hFirst.append hFirst', hSecond.append hSecond', hThird.append hThird'⟩

/-- What a text becomes under a pass, the pass leaves of it. -/
theorem Pass.leaves_of_becomes (h : Becomes pass.step s out) : pass.Leaves s out :=
  fun root _ => h root

/-- A pass leaves one thing of a text. -/
theorem Pass.Leaves.unique (h : pass.Leaves s out) (h' : pass.Leaves s out') : out = out' :=
  List.append_cancel_right ((h ['<'] rfl).symm.trans (h' ['<'] rfl))

/-- A text vanishes exactly if it is stripped to blanks. -/
theorem StripsTo.vanishes_iff (h : StripsTo s out) : Vanishes s ↔ Blanks out := by
  obtain ⟨first, second, hFirst, hSecond, hThird⟩ := h
  have hFirst := Pass.leaves_of_becomes hFirst
  have hSecond := Pass.leaves_of_becomes hSecond
  have hThird := Pass.leaves_of_becomes hThird
  constructor
  · rintro ⟨first', second', blanks, hFirst', hSecond', hThird', hBlanks⟩
    obtain rfl := hFirst.unique hFirst'
    obtain rfl := hSecond.unique hSecond'
    obtain rfl := hThird.unique hThird'
    exact hBlanks
  · exact fun hBlanks => ⟨first, second, out, hFirst, hSecond, hThird, hBlanks⟩

theorem leavesTags_instructions : LeavesTags instructions.step := by
  rw [instructions_step]
  exact leavesTags_dropping (by decide)

theorem leavesTags_comments : LeavesTags comments.step := by
  rw [comments_step]
  exact leavesTags_dropping (by decide)

theorem stripsTo_free (h : '<' ∉ s) : StripsTo s s :=
  ⟨s, s, leavesTags_instructions.becomes_free h, leavesTags_droppingDoctype.becomes_free h,
    leavesTags_comments.becomes_free h⟩

theorem XmlSpace.blanks (space : XmlSpace) : Blanks space.text :=
  fun c hc => Text.isBlank_of_isWhitespace (space.white c hc)

/-- A comment is stripped to nothing, unless it holds the mark of an instruction. -/
theorem XmlComment.stripsTo {comment : XmlComment} (h : (Misc.comment comment).Unmixed) : StripsTo comment.text [] := by
  have hDashes : ¬"--".toList <:+: comment.content :=
    fun hInfix => comment.dashes (hInfix.trans (List.prefix_append _ _).isInfix)
  have hComment : IsComment comment.content := ⟨hDashes, h.1, h.2⟩
  refine ⟨comment.text, comment.text, ?_, becomes_comment_droppingDoctype hComment, ?_⟩
  · rw [instructions_step]
    exact becomes_comment_dropping hComment
  · rw [comments_step]
    exact becomes_comment_dropped hComment

theorem XmlInstruction.stripsTo (instruction : XmlInstruction) : StripsTo instruction.text [] := by
  have hEnd : ¬"?>".toList <:+: instruction.target ++ instruction.data :=
    fun h => instruction.ending (Text.infix_of_append (instruction.isName.not_mem (by decide)) h)
  refine ⟨[], [], ?_, .nil, .nil⟩
  rw [instructions_step]
  exact (IsProlog.some hEnd).becomes_nil

/-- What may stand around a document type is stripped to blanks. -/
theorem Misc.stripsTo {misc : Misc} (h : misc.Unmixed) : ∃ blanks, StripsTo misc.text blanks ∧ Blanks blanks := by
  cases misc with
  | space space => exact ⟨space.text, stripsTo_free (not_mem_of_blanks space.blanks (by decide)), space.blanks⟩
  | comment comment => exact ⟨[], XmlComment.stripsTo h, List.forall_mem_nil _⟩
  | instruction instruction free => exact ⟨[], instruction.stripsTo, List.forall_mem_nil _⟩

theorem stripsTo_flatMap {miscs : List Misc} (h : ∀ misc ∈ miscs, misc.Unmixed) :
    ∃ blanks, StripsTo (miscs.flatMap Misc.text) blanks ∧ Blanks blanks := by
  induction miscs with
  | nil => exact ⟨[], .nil, List.forall_mem_nil _⟩
  | cons misc miscs ih =>
      obtain ⟨hHere, hRest⟩ := List.forall_mem_cons.mp h
      obtain ⟨blanks, hStrips, hBlanks⟩ := Misc.stripsTo hHere
      obtain ⟨blanks', hStrips', hBlanks'⟩ := ih hRest
      exact ⟨blanks ++ blanks', hStrips.append hStrips', List.forall_mem_append.mpr ⟨hBlanks, hBlanks'⟩⟩

/-- A document type stays where instructions are dropped. -/
theorem XmlDoctype.becomes_self {doctype : XmlDoctype} (h : doctype.Unmixed) :
    Becomes instructions.step doctype.text doctype.text := by
  rw [instructions_step]
  exact becomes_doctype_dropping (by decide) h.instruction

/-- What stands behind the first `>` within a document type is left. -/
theorem XmlDoctype.exists_stripsTo {doctype : XmlDoctype} (h : doctype.Unmixed) (hEnd : '>' ∈ doctype.content) :
    ∃ back, StripsTo doctype.text (back ++ ">".toList) := by
  obtain ⟨front, back, hContent, hFront⟩ := List.eq_append_cons_of_mem hEnd
  have hWithin : back <:+: doctype.content := by
    rw [hContent]
    exact ((List.suffix_cons _ _).trans (List.suffix_append _ _)).isInfix
  have hText : doctype.text = "<!".toList ++ "DOCTYPE".toList ++ (front ++ ">".toList) ++ (back ++ ">".toList) := by
    rw [text, hContent]
    simp
  have hSecond : Becomes doctypes.step (back ++ ">".toList) (back ++ ">".toList) := by
    refine becomes_before (fun u rest _ hSuffix => droppingDoctype_of_not_prefix ?_)
      (leavesTags_droppingDoctype.becomes_free (by decide))
    rw [List.map_append, List.map_cons]
    exact Text.not_prefix_append (fun hInfix => h.keyword (hInfix.trans (hWithin.map _))) (by decide) (hSuffix.map _) _
  have hThird : Becomes comments.step (back ++ ">".toList) (back ++ ">".toList) := by
    have hNone : ¬"<!--".toList <:+: back := fun hInfix => h.comment (hInfix.trans hWithin)
    rw [comments_step]
    exact becomes_unmarked hNone (by decide) ((leavesTags_dropping (by decide)).becomes_free (by decide))
  refine ⟨back, doctype.text, back ++ ">".toList, XmlDoctype.becomes_self h, ?_, hThird⟩
  rw [hText]
  exact (becomes_droppingDoctype (by decide) hFront).append hSecond

/-- A document type is stripped to blanks exactly if it holds no angle bracket. -/
theorem XmlDoctype.stripsTo {doctype : XmlDoctype} (h : doctype.Unmixed) :
    ∃ out, StripsTo doctype.text out ∧ (Blanks out ↔ '>' ∉ doctype.content) := by
  by_cases hEnd : '>' ∈ doctype.content
  · obtain ⟨back, hStrips⟩ := XmlDoctype.exists_stripsTo h hEnd
    exact ⟨_, hStrips, iff_of_false (fun hBlanks => absurd (hBlanks '>' (by simp)) (by decide)) (not_not_intro hEnd)⟩
  · exact ⟨[], ⟨doctype.text, [], XmlDoctype.becomes_self h, becomes_droppingDoctype (by decide) hEnd, .nil⟩,
      iff_of_true (List.forall_mem_nil _) hEnd⟩

theorem XmlProlog.stripsTo {prolog : XmlProlog} (h : prolog.Unmixed) :
    ∃ out, StripsTo prolog.text out ∧ (Blanks out ↔ ∀ found ∈ prolog.doctype, '>' ∉ found.1.content) := by
  obtain ⟨declaration, front, doctype⟩ := prolog
  have hDeclaration : StripsTo (declaration.elim [] fun declaration => declaration.val.text) [] := by
    cases declaration with
    | none => exact .nil
    | some declaration => exact declaration.val.stripsTo
  obtain ⟨blanks, hFront, hBlanks⟩ := stripsTo_flatMap h.front
  cases doctype with
  | none =>
      refine ⟨_, hDeclaration.append (hFront.append .nil), ?_⟩
      simpa using hBlanks
  | some found =>
      obtain ⟨doctype, back⟩ := found
      obtain ⟨out, hDoctype, hOut⟩ := XmlDoctype.stripsTo (h.doctype _ rfl)
      obtain ⟨blanks', hBack, hBlanks'⟩ := stripsTo_flatMap (h.back _ rfl)
      refine ⟨_, hDeclaration.append (hFront.append (hDoctype.append hBack)), ?_⟩
      have hParts : Blanks ([] ++ (blanks ++ (out ++ blanks'))) ↔ Blanks out := by
        simp only [Blanks, List.nil_append, List.forall_mem_append]
        exact ⟨fun hAll => hAll.2.1, fun hMiddle => ⟨hBlanks, hMiddle, hBlanks'⟩⟩
      rw [hParts, hOut]
      simp

end Stripping

section Optimizing

variable {s t : Text}

/-- Texts are optimized alike exactly if their canonical texts are the same. -/
theorem canonicalOptimizer_eq_iff :
    Component.canonicalOptimizer s = Component.canonicalOptimizer t ↔ canonical s = canonical t := by
  rw [Component.canonicalOptimizer, Component.canonicalOptimizer]
  cases canonical s <;> cases canonical t <;> simp

/-- A prolog leaves no trace in front of any root if and only if it vanishes. If nothing in it is mixed up, it vanishes
if and only if its document type has no `>` within. -/
theorem XmlProlog.leaves_no_trace_iff (prolog : XmlProlog) :
    ((∀ root, IsBareRoot root → Component.canonicalOptimizer (prolog.text ++ root) = Component.canonicalOptimizer root) ↔
      Vanishes prolog.text) ∧
    (prolog.Unmixed → (Vanishes prolog.text ↔ ∀ found ∈ prolog.doctype, '>' ∉ found.1.content)) := by
  constructor
  · simp only [canonicalOptimizer_eq_iff]
    exact canonical_append_iff prolog.text
  · intro h
    obtain ⟨out, hStrips, hOut⟩ := XmlProlog.stripsTo h
    exact hStrips.vanishes_iff.trans hOut

def XmlSpace.single (c : Char) (h : c.isWhitespace = true) : XmlSpace :=
  ⟨[c], List.cons_ne_nil _ _, List.forall_mem_singleton.mpr h⟩

/-- What drawing tools put in front of their drawings. -/
def drawnProlog : XmlProlog where
  declaration := some ⟨⟨"xml".toList, " version=\"1.0\"".toList, by decide, by simp, Text.not_infix_of_splitAtText? rfl⟩, rfl⟩
  front := [.space (.single '\n' rfl), .comment ⟨" A > B ".toList, Text.not_infix_of_splitAtText? rfl⟩,
    .instruction ⟨"a".toList, " <!-- ".toList, by decide, by simp, Text.not_infix_of_splitAtText? rfl⟩ (by decide)]
  doctype := some (⟨.single ' ' rfl, "svg".toList, by decide, some (.single ' ' rfl, .publicId (.single ' ' rfl)
    ⟨'"', "-//A//DTD B".toList, .inl rfl, by decide⟩ (.single '\t' rfl) ⟨'\'', "a.dtd".toList, .inr rfl, by decide⟩),
    none, none⟩, [.space (.single '\n' rfl)])

/-- The prolog of a drawn image, with comments, instructions and identifiers that look like other things. -/
theorem drawnProlog_leaves_no_trace :
    drawnProlog.text = ("<?xml version=\"1.0\"?>\n<!-- A > B --><?a <!-- ?>" ++
      "<!DOCTYPE svg PUBLIC \"-//A//DTD B\"\t'a.dtd'>\n").toList ∧
    drawnProlog.Unmixed ∧
    ∀ root, IsBareRoot root →
      Component.canonicalOptimizer (drawnProlog.text ++ root) = Component.canonicalOptimizer root := by
  have hComment : (Misc.comment ⟨" A > B ".toList, Text.not_infix_of_splitAtText? rfl⟩).Unmixed :=
    ⟨Text.not_infix_of_splitAtText? rfl, Text.not_infix_of_splitAtText? rfl⟩
  have hUnmixed : drawnProlog.Unmixed := by
    refine ⟨?_, ?_, ?_⟩
    · exact List.forall_mem_cons.mpr ⟨trivial, List.forall_mem_cons.mpr ⟨hComment, List.forall_mem_singleton.mpr trivial⟩⟩
    · rintro _ ⟨⟩
      exact ⟨Text.not_infix_of_splitAtText? rfl, Text.not_infix_of_splitAtText? rfl, Text.not_infix_of_splitAtText? rfl⟩
    · rintro _ ⟨⟩
      exact List.forall_mem_singleton.mpr trivial
  have hEnd : ∀ found ∈ drawnProlog.doctype, '>' ∉ found.1.content := by
    rintro _ ⟨⟩
    decide
  obtain ⟨hTrace, hVanishes⟩ := XmlProlog.leaves_no_trace_iff drawnProlog
  exact ⟨rfl, hUnmixed, hTrace.mpr ((hVanishes hUnmixed).mpr hEnd)⟩

/-- A document type that declares an entity. -/
def declaringProlog : XmlProlog where
  declaration := none
  front := []
  doctype := some (⟨.single ' ' rfl, "svg".toList, by decide, none, some (.single ' ' rfl),
    some ([.declaration ⟨"ENTITY".toList, [.char ' ' (by decide), .char 'a' (by decide), .char ' ' (by decide),
      .literal ⟨'"', "b".toList, .inl rfl, by decide⟩], by decide⟩], none)⟩, [])

/-- A comment with the mark of an instruction in it. -/
def mixedProlog : XmlProlog where
  declaration := none
  front := [.comment ⟨" <? ".toList, Text.not_infix_of_splitAtText? rfl⟩]
  doctype := none

/-- An internal subset leaves its closing bracket, and a comment that begins an instruction takes part of the root. -/
theorem declaringProlog_leaves_trace :
    (declaringProlog.text = "<!DOCTYPE svg [<!ENTITY a \"b\">]>".toList ∧ IsBareRoot "<svg/>".toList ∧
      Component.canonicalOptimizer "<svg/>".toList = .ok "<svg/>".toList ∧
      Component.canonicalOptimizer (declaringProlog.text ++ "<svg/>".toList) = .ok "]><svg/>".toList) ∧
    (mixedProlog.text = "<!-- <? -->".toList ∧ IsBareRoot "<svg>?></svg>".toList ∧
      Component.canonicalOptimizer "<svg>?></svg>".toList = .ok "<svg>?></svg>".toList ∧
      Component.canonicalOptimizer (mixedProlog.text ++ "<svg>?></svg>".toList) = .ok "<!-- </svg>".toList) := by
  have hBare : IsBareRoot "<svg>?></svg>".toList :=
    ⟨by decide, Text.not_infix_of_splitAtText? rfl, Text.not_infix_of_splitAtText? rfl, Text.not_infix_of_splitAtText? rfl⟩
  exact ⟨⟨rfl, isBareRoot_of_free (by decide) (by decide), rfl, rfl⟩, rfl, hBare, rfl, rfl⟩

end Optimizing

end IconRegistry.Markup
