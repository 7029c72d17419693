import IconRegistry.Script.Lexeme

/-! What a string literal denotes, by the grammar of the script language, and the scanner of strings as its reader: it
takes exactly what the grammar derives, so a text has one literal at its front, or none. -/
namespace IconRegistry.Script

/-- The value of hexadecimal digits behind others with a certain value. -/
def hexFrom? (value : Nat) (digits : Text) : Option Nat :=
  digits.foldlM (fun value c => (Text.hexDigit? c).map fun digit => value * 16 + digit) value

def isOctalDigit (c : Char) : Bool :=
  48 ≤ c.toNat && c.toNat ≤ 55

def octalValue (c : Char) : Nat :=
  c.toNat - 48

/-- The escapes of one letter, and the code that each stands for. -/
def letterEscapes : List (Char × Nat) :=
  [('b', 8), ('t', 9), ('n', 10), ('v', 11), ('f', 12), ('r', 13)]

/-- The escapes of the grammar: what stands behind a backslash, and the codes it denotes, in front of `behind`. A code is
a code point, or half of one where escapes give the halves one by one. Octal escapes take as many digits as fit into a
byte. -/
inductive Escapes : (escape : Text) → (codes : List Nat) → (behind : Text) → Prop
  | letter {c n behind} : (c, n) ∈ letterEscapes → Escapes [c] [n] behind
  | byte {digits n behind} : digits.length = 2 → hexFrom? 0 digits = some n → Escapes ('x' :: digits) [n] behind
  | unit {digits n behind} : digits.length = 4 → hexFrom? 0 digits = some n → Escapes ('u' :: digits) [n] behind
  | point {digits n behind} : digits ≠ [] → hexFrom? 0 digits = some n → n ≤ 0x10FFFF →
      Escapes ('u' :: '{' :: (digits ++ ['}'])) [n] behind
  | octal {a behind} : isOctalDigit a = true → (∀ c ∈ behind.head?, isOctalDigit c = false) →
      Escapes [a] [octalValue a] behind
  | octals {a b behind} : isOctalDigit a = true → isOctalDigit b = true →
      (octalValue a ≤ 3 → ∀ c ∈ behind.head?, isOctalDigit c = false) →
      Escapes [a, b] [octalValue a * 8 + octalValue b] behind
  | octalByte {a b c behind} : isOctalDigit a = true → octalValue a ≤ 3 → isOctalDigit b = true →
      isOctalDigit c = true → Escapes [a, b, c] [(octalValue a * 8 + octalValue b) * 8 + octalValue c] behind
  | lineBreak {c behind} : isLineBreak c = true → (c = '\r' → behind.head? ≠ some '\n') → Escapes [c] [] behind
  | lineBreaks {behind} : Escapes ['\r', '\n'] [] behind
  | itself {c behind} : c ∉ "btnvfrxu".toList → isLineBreak c = false → isOctalDigit c = false →
      Escapes [c] [c.toNat] behind

/-- What the grammar derives behind an opening quote: characters that stand for themselves, which line feeds and
carriage returns do not, and escapes, up to the same quote. -/
inductive Quoted (quote : Char) : (body : Text) → (codes : List Nat) → (behind : Text) → Prop
  | close {behind} : Quoted quote [quote] [] behind
  | plain {c body codes behind} : c ≠ quote → c ≠ '\\' → c ≠ '\n' → c ≠ '\r' → Quoted quote body codes behind →
      Quoted quote (c :: body) (c.toNat :: codes) behind
  | escape {escape first body codes behind} : Escapes escape first (body ++ behind) → Quoted quote body codes behind →
      Quoted quote ('\\' :: (escape ++ body)) (first ++ codes) behind

variable {quote : Char} {s digits escape body behind : Text} {codes : List Nat} {value v n count read : Nat}

/-- A hexadecimal digit is worth sixteen of what follows it. -/
theorem hexFrom?_cons (value : Nat) (c : Char) (digits : Text) :
    hexFrom? value (c :: digits) = (Text.hexDigit? c).bind fun digit => hexFrom? (value * 16 + digit) digits := by
  cases hDigit : Text.hexDigit? c <;> simp [hexFrom?, hDigit]

theorem le_of_hexFrom? (h : hexFrom? value digits = some v) : value ≤ v := by
  induction digits generalizing value with
  | nil =>
      obtain rfl : value = v := by simpa [hexFrom?] using h
      exact Nat.le_refl _
  | cons c digits ih =>
      rw [hexFrom?_cons] at h
      obtain ⟨digit, -, hRest⟩ := Option.bind_eq_some_iff.mp h
      have := ih hRest
      omega

/-- Hexadecimal digits are read whatever follows them. -/
theorem hexDigits?_append (digits behind : Text) (value : Nat) :
    hexDigits? digits.length (digits ++ behind) value = hexFrom? value digits := by
  induction digits generalizing value with
  | nil => rfl
  | cons c digits ih =>
      rw [List.length_cons, List.cons_append, hexDigits?, hexFrom?_cons]
      simp only [ih]

theorem length_of_hexDigits? (h : hexDigits? count s value = some v) : count ≤ s.length := by
  induction count generalizing s value with
  | zero => exact Nat.zero_le _
  | succ count ih =>
      cases s with
      | nil => cases h
      | cons c s =>
          rw [hexDigits?] at h
          obtain ⟨digit, -, hRest⟩ := Option.bind_eq_some_iff.mp h
          exact Nat.succ_le_succ (ih hRest)

/-- Exactly so many digits are read. -/
theorem hexDigits?_eq_some (h : hexDigits? count s value = some v) :
    ∃ digits behind, s = digits ++ behind ∧ digits.length = count ∧ hexFrom? value digits = some v := by
  have hLength : (s.take count).length = count := List.length_take_of_le (length_of_hexDigits? h)
  refine ⟨s.take count, s.drop count, (List.take_append_drop count s).symm, hLength, ?_⟩
  rw [← hexDigits?_append (s.take count) (s.drop count), hLength, List.take_append_drop, h]

/-- Digits in braces are read up to the closing one. -/
theorem bracedHex?_append (hDigits : hexFrom? value digits = some v) (hLast : v ≤ 0x10FFFF)
    (hSome : digits ≠ [] ∨ read ≠ 0) (behind : Text) :
    bracedHex? (digits ++ '}' :: behind) value read = some (v, read + digits.length + 1) := by
  induction digits generalizing value read with
  | nil =>
      obtain rfl : value = v := by simpa [hexFrom?] using hDigits
      have hRead : read ≠ 0 := by simpa using hSome
      simp [bracedHex?, hRead]
  | cons c digits ih =>
      rw [hexFrom?_cons] at hDigits
      obtain ⟨digit, hDigit, hRest⟩ := Option.bind_eq_some_iff.mp hDigits
      have hBrace : c ≠ '}' := by
        rintro rfl
        cases hDigit
      have hFits : ¬value * 16 + digit > 0x10FFFF := by
        have := le_of_hexFrom? hRest
        omega
      rw [List.cons_append, bracedHex?]
      simp only [beq_iff_eq, hBrace, hDigit, hFits, if_false, ih hRest (.inr (Nat.succ_ne_zero read)),
        List.length_cons]
      simp
      omega

/-- What is read in braces is digits, at least one, of a code that is not too large. -/
theorem bracedHex?_eq_some (h : bracedHex? s value read = some (v, n)) (hValue : value ≤ 0x10FFFF) :
    ∃ digits behind, s = digits ++ '}' :: behind ∧ n = read + digits.length + 1 ∧
      hexFrom? value digits = some v ∧ v ≤ 0x10FFFF ∧ (digits ≠ [] ∨ read ≠ 0) := by
  induction s generalizing value read with
  | nil => cases h
  | cons c s ih =>
      rw [bracedHex?] at h
      split at h
      · rename_i hBrace
        obtain rfl : c = '}' := by simpa using hBrace
        split at h
        · cases h
        · rename_i hRead
          obtain ⟨rfl, rfl⟩ := Prod.mk.inj (Option.some.inj h)
          exact ⟨[], s, rfl, rfl, rfl, hValue, .inr (by simpa using hRead)⟩
      · split at h
        · rename_i digit hDigit
          simp only at h
          split at h
          · cases h
          · rename_i hFits
            obtain ⟨digits, behind, rfl, rfl, hDigits, hLast, -⟩ := ih h (by omega)
            refine ⟨c :: digits, behind, rfl, by simp; omega, ?_, hLast, .inl (by simp)⟩
            rw [hexFrom?_cons, hDigit]
            exact hDigits
        · cases h

theorem octalValue_le {c : Char} (h : isOctalDigit c = true) : octalValue c ≤ 7 := by
  simp only [isOctalDigit, Bool.and_eq_true, decide_eq_true_eq] at h
  rw [octalValue]
  omega

/-- An octal digit is taken if the value still fits a byte. -/
theorem octalDigits_of_fits {c : Char} (h : isOctalDigit c = true) (hFits : value * 8 + octalValue c ≤ 255)
    (count : Nat) (s : Text) (read : Nat) :
    octalDigits (count + 1) (c :: s) value read = octalDigits count s (value * 8 + octalValue c) (read + 1) := by
  simp only [isOctalDigit, Bool.and_eq_true, decide_eq_true_eq] at h
  rw [octalValue] at hFits ⊢
  simp [octalDigits, h, hFits]

/-- The digits end in front of one that would not fit, and of what is none. -/
theorem octalDigits_of_not_fits (h : ∀ c ∈ s.head?, isOctalDigit c = false ∨ 255 < value * 8 + octalValue c)
    (count read : Nat) : octalDigits count s value read = (value, read) := by
  cases count with
  | zero => rfl
  | succ count =>
      cases s with
      | nil => rfl
      | cons c s =>
          have hStop := h c rfl
          simp only [isOctalDigit, octalValue, Bool.and_eq_false_iff, decide_eq_false_iff_not] at hStop
          rw [octalDigits]
          simp only [Bool.and_eq_true, decide_eq_true_eq, ite_eq_right_iff]
          omega

/-- Behind no letter with a meaning of its own, an escape is a line break, octal digits or one character. -/
theorem stringEscape?_of_not_letter {c : Char} (h : c ∉ "btnvfrxu".toList) (hReturn : c ≠ '\r') (s : Text) :
    stringEscape? (c :: s) =
      if isLineBreak c then some ([], 1)
      else if isOctalDigit c then some ([(octalDigits 3 (c :: s) 0 0).1], (octalDigits 3 (c :: s) 0 0).2)
      else some ([c.toNat], 1) := by
  have hLetters : c ≠ 'b' ∧ c ≠ 't' ∧ c ≠ 'n' ∧ c ≠ 'v' ∧ c ≠ 'f' ∧ c ≠ 'r' ∧ c ≠ 'x' ∧ c ≠ 'u' := by
    simpa using h
  simp [stringEscape?, hLetters, isOctalDigit]

theorem not_mem_of_kind {kind : Char → Bool} {c : Char} (hNone : ∀ d ∈ s, kind d = false) (h : kind c = true) :
    c ∉ s := by
  intro hMember
  rw [hNone c hMember] at h
  cases h

/-- An octal escape has at most three digits. -/
theorem stringEscape?_octal {c : Char} (h : isOctalDigit c = true) (s : Text) :
    stringEscape? (c :: s) = some ([(octalDigits 3 (c :: s) 0 0).1], (octalDigits 3 (c :: s) 0 0).2) := by
  have hLetter : c ∉ "btnvfrxu".toList := not_mem_of_kind (by decide) h
  have hBreak : c ∉ ['\n', '\r', '\u2028', '\u2029'] := not_mem_of_kind (by decide) h
  simp only [List.mem_cons, List.not_mem_nil, or_false, not_or] at hBreak
  have hNone : isLineBreak c = false := by simp [isLineBreak, hBreak]
  rw [stringEscape?_of_not_letter hLetter hBreak.2.1, hNone, h]
  rfl

theorem unicodeEscape?_of_ne {c : Char} (h : c ≠ '\x7b') (s : Text) :
    unicodeEscape? (c :: s) = (hexDigits? 4 (c :: s) 0).map fun value => (value, 4) := by
  simp [unicodeEscape?, h]

/-- What the grammar derives as an escape is read as one. -/
theorem Escapes.stringEscape?_eq (h : Escapes escape codes behind) :
    stringEscape? (escape ++ behind) = some (codes, escape.length) := by
  cases h with
  | letter hMember =>
      simp only [letterEscapes, List.mem_cons, Prod.mk.injEq, List.not_mem_nil, or_false] at hMember
      rcases hMember with ⟨rfl, rfl⟩ | ⟨rfl, rfl⟩ | ⟨rfl, rfl⟩ | ⟨rfl, rfl⟩ | ⟨rfl, rfl⟩ | ⟨rfl, rfl⟩ <;> rfl
  | @byte digits n _ hLength hDigits =>
      have hRead := hexDigits?_append digits behind 0
      rw [hLength, hDigits] at hRead
      simp [stringEscape?, hRead, hLength]
  | @unit digits n _ hLength hDigits =>
      have hRead := hexDigits?_append digits behind 0
      rw [hLength, hDigits] at hRead
      obtain ⟨c, digits, rfl⟩ := List.exists_cons_of_length_eq_add_one hLength
      have hBrace : c ≠ '\x7b' := by
        rintro rfl
        cases hDigits
      rw [List.cons_append] at hRead ⊢
      simp only [stringEscape?, List.cons_append, unicodeEscape?_of_ne hBrace, hRead, List.length_cons]
      simpa using hLength
  | @point digits n _ hSome hDigits hLast =>
      have hRead : bracedHex? (digits ++ '}' :: behind) 0 0 = some (n, 0 + digits.length + 1) :=
        bracedHex?_append hDigits hLast (.inl hSome) behind
      simp [stringEscape?, unicodeEscape?, hRead]
  | @octal a _ ha hEnd =>
      have hA := octalValue_le ha
      rw [List.singleton_append, stringEscape?_octal ha, octalDigits_of_fits ha (by omega),
        octalDigits_of_not_fits fun c hc => .inl (hEnd c hc)]
      simp
  | @octals a b _ ha hb hEnd =>
      have hA := octalValue_le ha
      have hB := octalValue_le hb
      have hFull : ∀ c ∈ behind.head?, isOctalDigit c = false ∨
          255 < ((0 * 8 + octalValue a) * 8 + octalValue b) * 8 + octalValue c := by
        intro c hc
        by_cases hSmall : octalValue a ≤ 3
        · exact .inl (hEnd hSmall c hc)
        · right
          omega
      rw [List.cons_append, List.singleton_append, stringEscape?_octal ha, octalDigits_of_fits ha (by omega),
        octalDigits_of_fits hb (by omega), octalDigits_of_not_fits hFull]
      simp
  | @octalByte a b c _ ha hSmall hb hc =>
      have hB := octalValue_le hb
      have hC := octalValue_le hc
      simp only [List.cons_append, List.nil_append]
      rw [stringEscape?_octal ha, octalDigits_of_fits ha (by omega), octalDigits_of_fits hb (by omega),
        octalDigits_of_fits hc (by omega), octalDigits]
      simp
  | @lineBreak c _ hBreak hReturn =>
      by_cases hCarriage : c = '\r'
      · subst hCarriage
        simp [stringEscape?, hReturn rfl]
      · have hLetter : c ∉ "btnvfrxu".toList := not_mem_of_kind (by decide) hBreak
        simp [stringEscape?_of_not_letter hLetter hCarriage, hBreak]
  | lineBreaks => rfl
  | @itself c _ hLetter hBreak hOctal =>
      have hReturn : c ≠ '\r' := by
        rintro rfl
        cases hBreak
      simp [stringEscape?_of_not_letter hLetter hReturn, hBreak, hOctal]

/-- Digits that are read as an octal escape are one of the three kinds. -/
theorem exists_escapes_octal {a : Char} (ha : isOctalDigit a = true) (s : Text) :
    ∃ escape codes behind, a :: s = escape ++ behind ∧ Escapes escape codes behind := by
  cases s with
  | nil => exact ⟨[a], _, [], rfl, .octal ha (by simp)⟩
  | cons b s =>
      cases hb : isOctalDigit b with
      | false => exact ⟨[a], _, b :: s, rfl, .octal ha (by simpa using hb)⟩
      | true =>
          by_cases hEnd : octalValue a ≤ 3 → ∀ c ∈ s.head?, isOctalDigit c = false
          · exact ⟨[a, b], _, s, rfl, .octals ha hb hEnd⟩
          · obtain ⟨hSmall, hSome⟩ := Classical.not_imp.mp hEnd
            cases s with
            | nil => simp at hSome
            | cons c s => exact ⟨[a, b, c], _, s, rfl, .octalByte ha hSmall hb (by simpa using hSome)⟩

/-- What begins with the letter of Unicode escapes and can be read is one. -/
theorem exists_escapes_unicode (h : (unicodeEscape? s).isSome = true) :
    ∃ escape codes behind, 'u' :: s = escape ++ behind ∧ Escapes escape codes behind := by
  obtain ⟨⟨v, n⟩, hRead⟩ := Option.isSome_iff_exists.mp h
  cases s with
  | nil => cases hRead
  | cons c s =>
      by_cases hBrace : c = '\x7b'
      · subst hBrace
        rw [unicodeEscape?] at hRead
        obtain ⟨⟨v, n⟩, hDigits, -⟩ := Option.map_eq_some_iff.mp hRead
        obtain ⟨digits, behind, rfl, -, hDigits, hLast, hSome⟩ := bracedHex?_eq_some hDigits (Nat.zero_le _)
        refine ⟨_, _, behind, ?_, .point (hSome.resolve_right (fun h => h rfl)) hDigits hLast⟩
        simp
      · rw [unicodeEscape?_of_ne hBrace] at hRead
        obtain ⟨v, hDigits, -⟩ := Option.map_eq_some_iff.mp hRead
        obtain ⟨digits, behind, hText, hLength, hDigits⟩ := hexDigits?_eq_some hDigits
        exact ⟨_, _, behind, by rw [hText, List.cons_append], .unit hLength hDigits⟩

/-- What is read as an escape is one that the grammar derives. -/
theorem exists_escapes (h : (stringEscape? s).isSome = true) :
    ∃ escape codes behind, s = escape ++ behind ∧ Escapes escape codes behind := by
  cases s with
  | nil => cases h
  | cons c s =>
      by_cases hLetter : c ∈ "btnvfrxu".toList
      · have hAll : ∀ d ∈ "btnvfrxu".toList, d = 'x' ∨ d = 'u' ∨ ∃ e ∈ letterEscapes, e.1 = d := by decide
        rcases hAll c hLetter with rfl | rfl | ⟨e, he, rfl⟩
        · rw [stringEscape?, Option.isSome_map] at h
          obtain ⟨v, hRead⟩ := Option.isSome_iff_exists.mp h
          obtain ⟨digits, behind, rfl, hLength, hDigits⟩ := hexDigits?_eq_some hRead
          exact ⟨_, _, behind, rfl, .byte hLength hDigits⟩
        · rw [stringEscape?, Option.isSome_map] at h
          exact exists_escapes_unicode h
        · exact ⟨[e.1], [e.2], s, rfl, .letter he⟩
      cases hBreak : isLineBreak c with
      | true =>
          by_cases hBoth : c = '\r' ∧ s.head? = some '\n'
          · obtain ⟨rfl, hNext⟩ := hBoth
            obtain ⟨behind, rfl⟩ := List.head?_eq_some_iff.mp hNext
            exact ⟨_, _, behind, rfl, .lineBreaks⟩
          · exact ⟨[c], _, s, rfl, .lineBreak hBreak fun hReturn hNext => hBoth ⟨hReturn, hNext⟩⟩
      | false =>
          cases hOctal : isOctalDigit c with
          | true => exact exists_escapes_octal hOctal s
          | false => exact ⟨[c], _, s, rfl, .itself hLetter hBreak hOctal⟩

/-- Characters that are skipped count as read. -/
theorem stringFrom?_skip (quote : Char) (skip : Nat) (s : Text) :
    stringFrom? quote skip s = (stringFrom? quote 0 (s.drop skip)).map fun answer => (answer.1, answer.2 + skip) := by
  induction skip generalizing s with
  | zero => simp
  | succ skip ih =>
      cases s with
      | nil => rfl
      | cons c s =>
          rw [stringFrom?, ih, List.drop_succ_cons, Option.map_map]
          rfl

/-- What the grammar derives behind a quote is read to its end. -/
theorem Quoted.stringFrom?_eq (hQuote : quote ≠ '\\') (h : Quoted quote body codes behind) :
    stringFrom? quote 0 (body ++ behind) = some (codes, body.length) := by
  induction h with
  | close => simp [stringFrom?]
  | plain hOther hBackslash hFeed hReturn _ ih => simp [stringFrom?, hOther, hBackslash, hFeed, hReturn, ih]
  | @escape escape first body codes behind hEscape _ ih =>
      rw [List.cons_append, List.append_assoc, stringFrom?]
      simp only [beq_iff_eq, hQuote.symm, if_false, hEscape.stringEscape?_eq, stringFrom?_skip quote escape.length,
        List.drop_left, ih]
      simp
      omega

/-- What is read as a string behind a quote is derived by the grammar. -/
theorem exists_quoted (h : (stringFrom? quote 0 s).isSome = true) :
    ∃ body codes behind, s = body ++ behind ∧ Quoted quote body codes behind := by
  -- on the length, since an escape takes several characters at once
  induction hLength : s.length using Nat.strongRecOn generalizing s with
  | ind n ih =>
      subst hLength
      cases s with
      | nil => cases h
      | cons c s =>
          by_cases hClose : c = quote
          · subst hClose
            exact ⟨[c], [], s, rfl, .close⟩
          have hBreak : ¬(c = '\n' ∨ c = '\r') := by
            intro hBreak
            simp [stringFrom?, hClose, hBreak] at h
          by_cases hBackslash : c = '\\'
          · subst hBackslash
            have hSome : (stringEscape? s).isSome = true := by
              cases hRead : stringEscape? s with
              | none => simp [stringFrom?, hClose, hRead] at h
              | some answer => rfl
            obtain ⟨escape, first, rest, rfl, hEscape⟩ := exists_escapes hSome
            have hRest : (stringFrom? quote 0 rest).isSome = true := by
              simpa [stringFrom?, hClose, hEscape.stringEscape?_eq, stringFrom?_skip quote escape.length] using h
            have hShort : rest.length < ('\\' :: (escape ++ rest)).length := by
              rw [List.length_cons, List.length_append]
              omega
            obtain ⟨body, codes, behind, rfl, hBody⟩ := ih rest.length hShort hRest rfl
            exact ⟨_, _, behind, by simp, .escape hEscape hBody⟩
          · have hRest : (stringFrom? quote 0 s).isSome = true := by
              simpa [stringFrom?, hClose, hBreak, hBackslash] using h
            obtain ⟨body, codes, behind, rfl, hBody⟩ := ih s.length (Nat.lt_succ_self _) hRest rfl
            obtain ⟨hFeed, hReturn⟩ := not_or.mp hBreak
            exact ⟨_, _, behind, rfl, .plain hClose hBackslash hFeed hReturn hBody⟩

/-- The scanner of strings reads what the grammar derives, and no more. -/
theorem stringFrom?_eq_some_iff (hQuote : quote ≠ '\\') :
    stringFrom? quote 0 s = some (codes, n) ↔
      ∃ body behind, s = body ++ behind ∧ n = body.length ∧ Quoted quote body codes behind := by
  constructor
  · intro h
    obtain ⟨body, others, behind, rfl, hBody⟩ := exists_quoted (Option.isSome_of_eq_some h)
    obtain ⟨rfl, rfl⟩ := Prod.mk.inj (Option.some.inj ((hBody.stringFrom?_eq hQuote).symm.trans h))
    exact ⟨body, behind, rfl, rfl, hBody⟩
  · rintro ⟨body, behind, rfl, rfl, hBody⟩
    exact hBody.stringFrom?_eq hQuote

/-- So a text has one string at its front, or none. -/
theorem Quoted.unique {other rest : Text} {others : List Nat} (hQuote : quote ≠ '\\')
    (h : Quoted quote body codes behind) (h' : Quoted quote other others rest)
    (hText : body ++ behind = other ++ rest) : body = other ∧ codes = others := by
  have hBoth := (h.stringFrom?_eq hQuote).symm.trans (hText ▸ h'.stringFrom?_eq hQuote)
  obtain ⟨hCodes, hLength⟩ := Prod.mk.inj (Option.some.inj hBoth)
  exact ⟨(List.append_inj hText hLength).1, hCodes⟩

/-- A string literal in double quotes, and the codes that it denotes, in front of `behind`. -/
def IsStringLiteral (literal : Text) (codes : List Nat) (behind : Text) : Prop :=
  ∃ body, literal = '"' :: body ∧ Quoted '"' body codes behind

/-- A double quote begins a string, and it is no token if none ends there. -/
theorem scanToken_quote (s : Text) :
    scanToken ('"' :: s) =
      ((stringFrom? '"' 0 s).map fun answer => (Token.string (joinSurrogates answer.1), answer.2 + 1)).getD
        (.invalid, 0) := by
  have hName : (isNameStart '"' || '"' == '\\') = false := by decide
  rw [scanToken]
  simp only [hName]
  cases stringFrom? '"' 0 s <;> simp

/-- A token behind a double quote is a string exactly if a literal stands there: the literal's text, of its length. -/
theorem scanToken_eq_string_iff {text : Text} :
    scanToken ('"' :: s) = (.string text, n) ↔
      ∃ literal codes behind, '"' :: s = literal ++ behind ∧ IsStringLiteral literal codes behind ∧
        joinSurrogates codes = text ∧ literal.length = n := by
  rw [scanToken_quote]
  constructor
  · intro h
    cases hRead : stringFrom? '"' 0 s with
    | none => simp [hRead] at h
    | some answer =>
        obtain ⟨body, behind, rfl, hLength, hBody⟩ := (stringFrom?_eq_some_iff (by decide)).mp hRead
        simp only [hRead, Option.map_some, Option.getD_some, Prod.mk.injEq, Token.string.injEq] at h
        refine ⟨'"' :: body, answer.1, behind, rfl, ⟨body, rfl, hBody⟩, h.1, ?_⟩
        rw [List.length_cons, ← hLength, h.2]
  · rintro ⟨_, codes, behind, hText, ⟨body, rfl, hBody⟩, rfl, rfl⟩
    obtain rfl : s = body ++ behind := (List.cons.inj hText).2
    rw [hBody.stringFrom?_eq (by decide)]
    rfl

end IconRegistry.Script
