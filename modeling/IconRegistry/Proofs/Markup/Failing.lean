import IconRegistry.Proofs.Markup.RootTag

/-! How the reading of markup fails. The steps that it is given do not matter once they are enough for every character,
and whether a root is refused depends on what stands between its two tags only. -/
namespace IconRegistry.Markup

section Lengths

variable {name s t : Text} {skip depth : Nat}

theorem NamedTag.afterName?_length {closing : Bool} {tag : NamedTag} (h : afterName? closing s = some tag) :
    tag.rest.length < s.length := by
  obtain ⟨rfl, -, -⟩ := afterName?_eq_some h
  simp only [List.length_append, List.length_cons]
  omega

theorem NamedTag.read?_length {tag : NamedTag} (h : read? name s = some tag) : tag.rest.length < s.length := by
  have hBehind : ∀ {closing t}, (Text.dropFront? name t).bind (afterName? closing) = some tag →
      tag.rest.length < t.length := by
    intro closing t ht
    obtain ⟨behind, hFront, hName⟩ := Option.bind_eq_some_iff.mp ht
    obtain rfl := Text.eq_append_of_dropFront? hFront
    have hShort := afterName?_length hName
    rw [List.length_append]
    omega
  rw [read?.eq_def] at h
  split at h
  · have hShort := hBehind h
    simp only [List.length_cons]
    omega
  · have hShort := hBehind h
    simp only [List.length_cons]
    omega
  · cases h

theorem OpenTag.read?_length {tag : OpenTag} (h : read? s = some tag) : tag.rest.length < s.length := by
  rw [read?.eq_def] at h
  split at h
  · rename_i c rest
    split at h
    · obtain ⟨⟨attributes, after⟩, hSplit, rfl⟩ := Option.map_eq_some_iff.mp h
      have hParts := congrArg List.length (splitTagEnd?_eq_some hSplit).1
      have hDrop := (List.dropWhile_sublist isTagNameChar (l := rest)).length_le
      simp only [List.length_append, List.length_cons] at hParts ⊢
      omega
    · cases h
  · cases h

/-- The two parts around a close tag are parts of the text. -/
theorem splitAtClose?_length {parts : Text × Text} (h : splitAtClose? name skip depth s = some parts) :
    parts.1.length + parts.2.length ≤ s.length := by
  induction s generalizing skip depth parts with
  | nil => cases skip <;> cases h
  | cons c rest ih =>
      have hOn : ∀ {skip depth}, (splitAtClose? name skip depth rest).map (fun p => (c :: p.1, p.2)) = some parts →
          parts.1.length + parts.2.length ≤ (c :: rest).length := by
        intro skip depth hMap
        obtain ⟨found, hFound, rfl⟩ := Option.map_eq_some_iff.mp hMap
        have hShort := ih hFound
        simp only [List.length_cons]
        omega
      cases skip with
      | succ skip => exact hOn h
      | zero =>
          rw [splitAtClose?] at h
          split at h
          · exact hOn h
          · rename_i tag hTag
            dsimp only at h
            split at h
            · cases h
              have hShort := NamedTag.read?_length hTag
              simpa using Nat.le_of_lt hShort
            · exact hOn h
            · exact hOn h

end Lengths

section Steps

variable {s : Text} {n m : Nat}

/-- What is read inside of an element is shorter than the element. -/
theorem readElement?_congr {read read' : Text → Except ReadError (List Node)}
    (h : ∀ t : Text, t.length < s.length → read t = read' t) : readElement? read s = readElement? read' s := by
  rw [readElement?, readElement?]
  split
  · rfl
  · rename_i tag hTag
    have hShort := OpenTag.read?_length hTag
    dsimp only
    split
    · rfl
    · rename_i inside after hBody
      split at hBody
      · cases hBody
      · have hParts := splitAtClose?_length hBody
        rw [h inside (by dsimp only at hParts; omega)]

theorem readElement?_length {read : Text → Except ReadError (List Node)} {e : Element} {after : Text}
    (h : readElement? read s = .ok (some (e, after))) : after.length < s.length := by
  rw [readElement?] at h
  split at h
  · cases h
  · rename_i tag hTag
    have hShort := OpenTag.read?_length hTag
    dsimp only at h
    split at h
    · cases h
      exact hShort
    · rename_i inside rest hBody
      obtain ⟨children, -, hRest⟩ := bind_eq_ok.mp h
      cases hRest
      split at hBody
      · cases hBody
      · have hParts := splitAtClose?_length hBody
        dsimp only at hParts
        omega

/-- One step of reading sibling nodes. The other nodes, and those inside of the first one, are read by `read`. -/
def nextNodes (read : Text → Except ReadError (List Node)) (s : Text) : Except ReadError (List Node) :=
  match Text.trimStart s with
  | [] => .ok []
  | c :: rest => do
    if c == '<' then
      match ← readElement? read (c :: rest) with
      | none => throw (.unexpected ((c :: rest).take 24))
      | some (element, after) => return element.toNode :: (← read after)
    else
      let content := (c :: rest).takeWhile (· != '<')
      return .text (Text.trimEnd content) :: (← read ((c :: rest).dropWhile (· != '<')))

theorem readNodesWithin_succ (n : Nat) (s : Text) : readNodesWithin (n + 1) s = nextNodes (readNodesWithin n) s := rfl

/-- A step leaves a shorter text to read. -/
theorem nextNodes_congr {read read' : Text → Except ReadError (List Node)}
    (h : ∀ t : Text, t.length < s.length → read t = read' t) : nextNodes read s = nextNodes read' s := by
  have hTrim := (Text.trimStart_suffix s).length_le
  rw [nextNodes, nextNodes]
  split
  · rfl
  · rename_i c rest hStart
    rw [hStart, List.length_cons] at hTrim
    split
    · have hSame : readElement? read (c :: rest) = readElement? read' (c :: rest) :=
        readElement?_congr fun t ht => h t (by simp at ht; omega)
      rw [hSame]
      cases hRead : readElement? read' (c :: rest) with
      | error cause => rfl
      | ok found =>
          cases found with
          | none => rfl
          | some pair =>
              obtain ⟨e, after⟩ := pair
              have hShort := readElement?_length hRead
              rw [List.length_cons] at hShort
              simp only [bind, Except.bind, h after (by omega)]
    · rename_i hOther
      have hDrop := (List.dropWhile_sublist (· != '<') (l := rest)).length_le
      have hBehind : (c :: rest).dropWhile (· != '<') = rest.dropWhile (· != '<') :=
        List.dropWhile_cons_of_pos (by simpa using hOther)
      dsimp only
      rw [hBehind, h (rest.dropWhile (· != '<')) (by omega)]

/-- With a step for each character, it does not matter how many steps there are. -/
theorem readNodesWithin_eq (hn : s.length < n) (hm : s.length < m) : readNodesWithin n s = readNodesWithin m s := by
  induction n generalizing s m with
  | zero => omega
  | succ n ih =>
      obtain ⟨m, rfl⟩ : ∃ k, m = k + 1 := ⟨m - 1, by omega⟩
      rw [readNodesWithin_succ, readNodesWithin_succ]
      exact nextNodes_congr fun t ht => ih (by omega) (by omega)

/-- More levels than characters are as good as enough. -/
theorem readNodesWithin_of_lt (h : s.length < n) : readNodesWithin n s = readNodes s :=
  readNodesWithin_eq h (Nat.lt_succ_self _)

/-- Reading goes on until nothing is left: there is always another step. -/
theorem readNodes_eq (s : Text) : readNodes s = nextNodes readNodes s := by
  rw [readNodes, readNodesWithin_succ]
  exact nextNodes_congr fun t ht => readNodesWithin_of_lt ht

/-- Nothing else reads nodes step by step. -/
theorem eq_readNodes {read : Text → Except ReadError (List Node)} (h : ∀ s, read s = nextNodes read s) :
    read = readNodes := by
  funext s
  induction hLength : s.length using Nat.strongRecOn generalizing s with
  | ind n ih =>
      subst hLength
      rw [h, readNodes_eq]
      exact nextNodes_congr fun t ht => ih _ ht t rfl

/-- An element in front of other nodes is the first one, whatever becomes of the others. -/
theorem Encloses.readNodes_append {style : Style} {opening : Opening} {children : List Node}
    (h : Encloses style opening children s) (hStyle : style.Readable) (hOpening : opening.Readable) (rest : Text) :
    readNodes (s ++ rest) = (readNodes rest).map ((opening.element children).toNode :: ·) := by
  have hRead := h.readElement? hStyle hOpening (fun inner hInner _ => hInner.readNodes hStyle) rest
  obtain ⟨t, hText⟩ := h.text_append rest
  rw [hText] at hRead ⊢
  rw [readNodes_eq ('<' :: t), nextNodes, Text.trimStart_eq_self (by rintro c ⟨rfl⟩; decide)]
  dsimp only
  rw [if_pos (by decide), hRead]
  rfl

end Steps

/-- Why a root is refused that has certain texts in its opening tag and behind it, if it is. -/
def failureBehind? (inside rest : Text) : Option ReadError :=
  (if closesItself inside then none else splitAtClose? "svg".toList 0 0 (Text.trimEnd rest)).bind
    fun parts => failure? (readNodes parts.1)

/-- A document that begins with the tag of an image fails as what follows the tag does. -/
theorem failure?_readRoot_svg {inside : Text} (h : EndsName inside) (rest : Text) :
    failure? (readRoot ("<svg".toList ++ (inside ++ '>' :: rest))) = failureBehind? inside rest := by
  rw [readRoot_svg h, failureBehind?]
  cases (if closesItself inside then none else splitAtClose? "svg".toList 0 0 (Text.trimEnd rest)) with
  | none => rfl
  | some parts =>
      dsimp only [Option.bind]
      cases readNodes parts.1 with
      | error | ok => rfl

/-- A root that is read from an opening tag called `svg` is called so. -/
theorem tag_of_readRoot_svg {s : Text} {tag : NamedTag} {e : Element} (hTag : Component.rootTag? s = some tag)
    (hRead : readRoot s = .ok e) : e.tag = "svg".toList := by
  obtain ⟨rfl, hEnds⟩ := rootTag?_eq_some hTag
  rw [readRoot_svg hEnds] at hRead
  split at hRead
  · cases hRead
    rfl
  · rename_i body after hBody
    cases hNodes : readNodes body with
    | error cause =>
        rw [hNodes] at hRead
        cases hRead
    | ok children =>
        rw [hNodes] at hRead
        cases hRead
        rfl

end IconRegistry.Markup
