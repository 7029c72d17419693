import IconRegistry.Proofs.Component.CallReading
import IconRegistry.Proofs.Markup.Entity

/-! Texts between tags as they are read back. JSX reads entities in text that stands as it is, and does not read them in
a string literal; in calls, a text is a string literal of what it denotes. -/
namespace IconRegistry.Component

open Markup
open Script (Lexeme isLineBreak isRunChar nextJsx_run next_stringLiteral)

/-- What the text in front of the next tag denotes in JSX, and what stands behind it: a run of text with its entities
read, or the string of a literal in braces. JSX folds a text of several lines, which is left out here. -/
def textBefore? (s : Text) : Option (Text × Text) :=
  let piece := Lexeme.nextJsx 0 s
  match piece.token with
  | .punct .less => some ([], s)
  | .jsxText =>
    let run := s.take piece.stop
    if run.any isLineBreak then none else some (decodeEntities run, piece.rest)
  | .punct .leftBrace =>
    let value := Lexeme.next false piece.stop false piece.rest
    match value.token with
    | .string text =>
      let close := Lexeme.next false value.stop false value.rest
      if close.token = .punct .rightBrace then some (text, close.rest) else none
    | _ => none
  | _ => none

section Reading

variable {run : Text}

/-- A run of characters on one line is read with its entities decoded. -/
theorem textBefore?_run (hRun : ∀ c ∈ run, isRunChar c = true) (hLine : ∀ c ∈ run, isLineBreak c = false)
    (more : Text) : textBefore? (run ++ '<' :: more) = some (decodeEntities run, '<' :: more) := by
  cases run with
  | nil => rfl
  | cons c run =>
      have hPiece : Lexeme.nextJsx 0 (c :: run ++ '<' :: more) =
          Lexeme.cut .jsxText 0 (c :: run).length (c :: run ++ '<' :: more) false :=
        nextJsx_run (List.cons_ne_nil c run) hRun (.inl rfl) 0
      have hTake : (c :: run ++ '<' :: more).take (0 + (c :: run).length) = c :: run := by
        rw [Nat.zero_add, List.take_left]
      have hOneLine : (c :: run).any isLineBreak = false := by simpa using hLine
      rw [textBefore?, hPiece]
      simp only [Lexeme.cut, hTake, hOneLine, List.drop_left]
      rfl

/-- A string in braces is read as it is. -/
theorem textBefore?_literal (text rest : Text) :
    textBefore? (inBraces (stringLiteral text) ++ rest) = some (text, rest) := by
  have hParts : inBraces (stringLiteral text) ++ rest = '\x7b' :: (stringLiteral text ++ '\x7d' :: rest) := by
    simp [inBraces]
  have hClose : ∀ position, Lexeme.next false position false ('\x7d' :: rest) =
      Lexeme.cut (.punct .rightBrace) position 1 ('\x7d' :: rest) false :=
    fun position => Script.next_of_beginsToken position false (by decide) rest
  rw [hParts, textBefore?, Lexeme.nextJsx]
  simp only [Lexeme.cut, List.drop_succ_cons, List.drop_zero, next_stringLiteral, List.drop_left, hClose]
  rfl

end Reading

/-- A text is written as it is, or as a string literal in braces, by what characters are in it. -/
theorem jsxText_cases (content : Text) :
    jsxText content = content ∧ (∀ c ∈ content, isRunChar c = true) ∨
      jsxText content = inBraces (stringLiteral content) ∧ ∃ c ∈ content, isRunChar c = false := by
  rw [jsxText]
  split
  · rename_i hSyntax
    obtain ⟨c, hc, hOne⟩ := List.any_eq_true.mp hSyntax
    refine .inr ⟨rfl, c, hc, ?_⟩
    simp only [Bool.or_eq_true, beq_iff_eq, or_assoc] at hOne
    rcases hOne with rfl | rfl | rfl | rfl <;> rfl
  · rename_i hPlain
    refine .inl ⟨rfl, fun c hc => ?_⟩
    have hNone := List.any_eq_false.mp (Bool.eq_false_iff.mpr hPlain) c hc
    simpa [isRunChar, and_assoc] using hNone

/-- In JSX, a text between tags is read as what calls write for it, which is what it denotes, just where it is free of
characters of JSX syntax or of entities: with both in it, it becomes a string literal with the entities left as they
are. -/
theorem text_read_alike_iff {content : Text} (hLine : ∀ c ∈ content, isLineBreak c = false)
    (attributeCase : AttributeCase) (ctor more rest : Text) :
    (textBefore? (jsxNode attributeCase (.text content) ++ '<' :: more) = some (decodeEntities content, '<' :: more) ↔
      (∀ c ∈ content, c ≠ '\x7b' ∧ c ≠ '\x7d' ∧ c ≠ '<' ∧ c ≠ '>') ∨ ∀ entity ∈ entities, ¬entity.1 <:+: content) ∧
    literal? (callNode ctor (.text content) ++ rest) = some (decodeEntities content, rest) := by
  refine ⟨?_, by rw [callNode]; exact literal?_stringLiteral _ rest⟩
  have hPlain : (∀ c ∈ content, c ≠ '\x7b' ∧ c ≠ '\x7d' ∧ c ≠ '<' ∧ c ≠ '>') ↔
      ∀ c ∈ content, isRunChar c = true := by
    simp [isRunChar, and_assoc]
  rw [jsxNode, hPlain]
  rcases jsxText_cases content with ⟨hText, hRun⟩ | ⟨hText, c, hc, hSyntax⟩
  · rw [hText, textBefore?_run hRun hLine]
    exact iff_of_true rfl (.inl hRun)
  · have hMixed : ¬∀ c ∈ content, isRunChar c = true := fun hRun => by simp [hRun c hc] at hSyntax
    rw [hText, textBefore?_literal, or_iff_right hMixed, ← decodeEntities_eq_self_iff, Option.some_inj, Prod.mk.injEq,
      and_iff_left rfl]
    exact eq_comm

/-- Braces and quotation marks alone do no harm, and neither do entities alone. -/
theorem text_read_alike_apart :
    textBefore? (jsxNode .camel (.text "a & \x7b\"b\"\x7d".toList) ++ "</svg>".toList) =
      some ("a & \x7b\"b\"\x7d".toList, "</svg>".toList) ∧
    textBefore? (jsxNode .camel (.text "a &amp; 'b'".toList) ++ "</svg>".toList) =
      some ("a & 'b'".toList, "</svg>".toList) :=
  ⟨(text_read_alike_iff (by decide) .camel "h".toList "/svg>".toList []).1.mpr (.inr (by decide +kernel)),
    (text_read_alike_iff (by decide) .camel "h".toList "/svg>".toList []).1.mpr (.inl (by decide +kernel))⟩

/-- The text of an icon with both in it: calls write what it denotes, and JSX another text. -/
theorem text_read_differently :
    readRoot "<svg>a &amp; \x7bb\x7d</svg>".toList =
      .ok ⟨"svg".toList, [], [.text "a &amp; \x7bb\x7d".toList], false⟩ ∧
    renderJsx .camel {} ⟨"svg".toList, [], [.text "a &amp; \x7bb\x7d".toList], false⟩ =
      "<svg>\x7b\"a &amp; \x7bb\x7d\"\x7d</svg>".toList ∧
    textBefore? "\x7b\"a &amp; \x7bb\x7d\"\x7d</svg>".toList =
      some ("a &amp; \x7bb\x7d".toList, "</svg>".toList) ∧
    decodeEntities "a &amp; \x7bb\x7d".toList = "a & \x7bb\x7d".toList ∧
    literal? (callNode "h".toList (.text "a &amp; \x7bb\x7d".toList)) = some ("a & \x7bb\x7d".toList, []) :=
  ⟨rfl, by decide +kernel, by decide +kernel, by decide +kernel, by decide +kernel⟩

end IconRegistry.Component
