/-
Spelt lists are read as a whole.

A `ListText` is a parameter list as it may be written: parameters with commas between them, perhaps one more comma, and
block-locals after a semicolon. If its parts are spelt and come in signature order, reading its text gives its tree
(`ListText.readList_chars`), in every layout.
-/
import RubySignature.Proofs.Signature.Reading

namespace RubySignature.Signature

structure ListText where
  parts : List (Spelt Item)
  /-- a comma follows the last parameter -/
  comma : Bool
  /-- white space after the parameters -/
  gap : List Char
  names : List (Spelt String)

namespace ListText

def shadowChars (names : List (Spelt String)) : List Char := if names.isEmpty then [] else ';' :: joined names

def chars (list : ListText) : List Char :=
  joined list.parts ++ ((if list.comma then [','] else []) ++ (list.gap ++ shadowChars list.names))

def toNode (list : ListText) (enclosing : Enclosing) : Node :=
  .ofNodes .args
    (Normals.nodes ⟨values list.parts, .leading, list.comma, []⟩ enclosing ++ (values list.names).map shadowNode)

/-- The list is spelt as the given construct allows. -/
structure Valid (list : ListText) (enclosing : Enclosing) : Prop where
  spaced : ∀ part ∈ list.parts, part.Spaced
  spelt : ∀ part ∈ list.parts, ItemText part.value part.text
  ordered : Slot.leading.run? ((values list.parts).map Item.kind) ≠ none
  /-- forwarding belongs to method definitions -/
  forwarding : enclosing = .other ∨ ∀ part ∈ list.parts, part.value.kind ≠ .forwardArg
  blanks : Blanks list.gap
  /-- the last comma belongs to blocks, after leading parameters -/
  extra : list.comma = true → enclosing = .block ∧ list.parts ≠ [] ∧
    Slot.leading.run? ((values list.parts).map Item.kind) = some .leading
  names_spaced : ∀ name ∈ list.names, name.Spaced
  names_spelt : ∀ name ∈ list.names, name.text = name.value.toList ∧ IsName name.value

end ListText

/-! ## Ordinary parameters -/

variable {rest : List Char}

theorem readItem_part {part : Spelt Item} (hspaced : part.Spaced) (htext : ItemText part.value part.text)
    (hrest : Closes (part.after ++ rest)) :
    ∃ left, skipBlank left = skipBlank rest ∧
      readItem [] (skipBlank (part.chars ++ rest)) = .ok (part.value, left) := by
  obtain ⟨left, hleft, hread⟩ := htext.reads [] hrest
  refine ⟨left, ?_, ?_⟩
  · rw [hleft, skipBlank_append hspaced.2]
  · rw [skipBlank_part hspaced htext.begins, hread]
    rfl

/-- what follows a parameter that may come next -/
theorem readNormals_item {enclosing : Enclosing} {slot next : Slot} {s left : List Char} {item : Item}
    (hread : readItem [] s = .ok (item, left)) (hforward : enclosing = .other ∨ item.kind ≠ .forwardArg)
    (hnext : slot.next? item.kind = some next) :
    readNormals enclosing slot s =
      match skipBlank left with
      | ',' :: later =>
        if atNormalsEnd (skipBlank later) then .ok ⟨[item], next, true, skipBlank later⟩
        else (readNormals enclosing next (skipBlank later)).map (.cons item)
      | later => .ok ⟨[item], next, false, later⟩ := by
  have hallowed : ¬ (item.kind = .forwardArg ∧ enclosing ≠ .other) := by
    rintro ⟨hkind, hother⟩
    rcases hforward with h | h
    · exact hother h
    · exact h hkind
  rw [readNormals]
  split
  · rename_i heq
    rw [hread] at heq
    cases heq
  · rename_i heq
    rw [hread] at heq
    obtain ⟨rfl, rfl⟩ := Prod.mk.inj (Except.ok.inj heq)
    rw [if_neg hallowed, hnext]
    dsimp only
    split
    · rename_i hcomma
      rw [hcomma]
      rfl
    · rename_i hother
      split
      · rename_i heq
        exact absurd heq (hother _)
      · rfl

theorem eq_of_atNormalsEnd {s : List Char} (h : atNormalsEnd s = true) : s = [] ∨ ∃ later, s = ';' :: later := by
  cases s with
  | nil => exact Or.inl rfl
  | cons c s =>
    have hc : c = ';' := by simpa [atNormalsEnd] using h
    exact Or.inr ⟨s, by rw [hc]⟩

theorem not_atNormalsEnd {s : List Char} (h : Begins s) : atNormalsEnd s = false := by
  apply eq_false_of_ne_true
  intro hend
  have hmark := h.not_atParamEnd
  rcases eq_of_atNormalsEnd hend with rfl | ⟨later, rfl⟩ <;> cases hmark

theorem begins_joined {parts : List (Spelt Item)} (hne : parts ≠ []) (hspaced : ∀ part ∈ parts, part.Spaced)
    (htext : ∀ part ∈ parts, ItemText part.value part.text) (rest : List Char) :
    Begins (skipBlank (joined parts ++ rest)) := by
  obtain ⟨part, later, rfl⟩ := List.exists_cons_of_ne_nil hne
  have hpart := hspaced part List.mem_cons_self
  have hbegins := (htext part List.mem_cons_self).begins
  by_cases hlater : later = []
  · subst hlater
    rw [joined, skipBlank_part hpart hbegins]
    exact hbegins.append _
  · rw [joined_cons part hlater, List.append_assoc, skipBlank_part hpart hbegins]
    exact hbegins.append _

/-- **Ordinary parameters are read up to a semicolon or the end of the text.** -/
theorem readNormals_parts {enclosing : Enclosing} {parts : List (Spelt Item)} (hne : parts ≠ [])
    (hspaced : ∀ part ∈ parts, part.Spaced) (htext : ∀ part ∈ parts, ItemText part.value part.text)
    (hforward : enclosing = .other ∨ ∀ part ∈ parts, part.value.kind ≠ .forwardArg) {slot last : Slot}
    (hslots : slot.run? ((values parts).map Item.kind) = some last) (comma : Bool)
    (hend : atNormalsEnd (skipBlank rest) = true) :
    readNormals enclosing slot (skipBlank (joined parts ++ ((if comma then [','] else []) ++ rest))) =
      .ok ⟨values parts, last, comma, skipBlank rest⟩ := by
  induction parts generalizing slot with
  | nil => exact absurd rfl hne
  | cons part later ih =>
    rw [List.forall_mem_cons] at hspaced htext
    have hkind : enclosing = .other ∨ part.value.kind ≠ .forwardArg := by
      rcases hforward with hother | h
      · exact Or.inl hother
      · exact Or.inr (h part List.mem_cons_self)
    obtain ⟨next, hnext, hrun⟩ := Option.bind_eq_some_iff.1 hslots
    by_cases hlater : later = []
    · subst hlater
      obtain rfl : next = last := Option.some.inj hrun
      cases comma with
      | true =>
        have hcomma : skipBlank (part.after ++ ',' :: rest) = ',' :: rest :=
          skipBlank_append_cons hspaced.1.2 (by decide) rest
        obtain ⟨left, hleft, hread⟩ := readItem_part hspaced.1 htext.1 (closes_of_skipBlank hcomma rfl)
        rw [joined, if_pos rfl, List.singleton_append, readNormals_item hread hkind hnext, hleft,
          skipBlank_cons (by decide)]
        exact if_pos hend
      | false =>
        have hcloses : Closes (part.after ++ rest) := by
          refine closes_of_skipBlank (skipBlank_append hspaced.1.2) ?_
          rcases eq_of_atNormalsEnd hend with h | ⟨s, h⟩ <;> rw [h] <;> rfl
        obtain ⟨left, hleft, hread⟩ := readItem_part hspaced.1 htext.1 hcloses
        rw [joined, if_neg Bool.false_ne_true, List.nil_append, readNormals_item hread hkind hnext, hleft]
        rcases eq_of_atNormalsEnd hend with h | ⟨s, h⟩ <;> rw [h] <;> rfl
    · have hkinds : enclosing = .other ∨ ∀ part ∈ later, part.value.kind ≠ .forwardArg := by
        rcases hforward with hother | h
        · exact Or.inl hother
        · exact Or.inr (List.forall_mem_cons.1 h).2
      have hparts := ih hlater hspaced.2 htext.2 hkinds hrun
      have hmore := not_atNormalsEnd (begins_joined hlater hspaced.2 htext.2 ((if comma then [','] else []) ++ rest))
      have hcomma : skipBlank (part.after ++ ',' :: (joined later ++ ((if comma then [','] else []) ++ rest))) =
          ',' :: (joined later ++ ((if comma then [','] else []) ++ rest)) :=
        skipBlank_append_cons hspaced.1.2 (by decide) _
      obtain ⟨left, hleft, hread⟩ := readItem_part hspaced.1 htext.1 (closes_of_skipBlank hcomma rfl)
      rw [joined_cons part hlater, List.append_assoc, List.cons_append, readNormals_item hread hkind hnext, hleft,
        skipBlank_cons (by decide)]
      simp only [hmore, hparts]
      rfl

/-! ## Block-locals -/

/-- what follows the name of a block-local -/
theorem readShadows_name {name : String} {s left : List Char} (hread : readName (skipBlank s) = .ok (name, left)) :
    readShadows s =
      match skipBlank left with
      | ',' :: later => (readShadows later).map fun (names, rest) => (name :: names, rest)
      | later => .ok ([name], later) := by
  rw [readShadows]
  split
  · rename_i heq
    rw [hread] at heq
    cases heq
  · rename_i heq
    rw [hread] at heq
    obtain ⟨rfl, rfl⟩ := Prod.mk.inj (Except.ok.inj heq)
    split
    · rename_i hcomma
      rw [hcomma]
      rfl
    · rename_i hother
      split
      · rename_i heq
        exact absurd heq (hother _)
      · rfl

theorem readName_part {part : Spelt String} (hspaced : part.Spaced) (htext : part.text = part.value.toList)
    (hname : IsName part.value) (hrest : Stops Unicode.isNameChar rest) :
    readName (skipBlank (part.chars ++ rest)) = .ok (part.value, part.after ++ rest) := by
  have hstop := stops_blanks noBlank_isNameChar hspaced.2 hrest
  unfold Spelt.chars
  rw [List.append_assoc, List.append_assoc, skipBlank_append hspaced.1, htext, (hname.begins.append _).skipBlank_eq,
    readName_name hname hstop]

/-- **Block-locals are read to the end of the text.** -/
theorem readShadows_parts {names : List (Spelt String)} (hne : names ≠ []) (hspaced : ∀ name ∈ names, name.Spaced)
    (hspelt : ∀ name ∈ names, name.text = name.value.toList ∧ IsName name.value) :
    readShadows (joined names) = .ok (values names, []) := by
  induction names with
  | nil => exact absurd rfl hne
  | cons name later ih =>
    rw [List.forall_mem_cons] at hspaced hspelt
    obtain ⟨⟨htext, hname⟩, hspelt⟩ := hspelt
    by_cases hlater : later = []
    · subst hlater
      have hread := readName_part hspaced.1 htext hname (stops_nil _)
      rw [List.append_nil, List.append_nil] at hread
      rw [joined, readShadows_name hread, skipBlank_of_blanks hspaced.1.2]
      rfl
    · have hcomma : Stops Unicode.isNameChar (',' :: joined later) := by
        rw [stops_cons]
        decide
      rw [joined_cons name hlater, readShadows_name (readName_part hspaced.1 htext hname hcomma),
        skipBlank_append hspaced.1.2, skipBlank_cons (by decide)]
      simp only [ih hlater hspaced.2 hspelt]
      rfl

/-! ## Whole lists -/

def startNormals (enclosing : Enclosing) (text : List Char) : Except Fault Normals :=
  if atNormalsEnd (skipBlank text) then .ok ⟨[], .leading, false, skipBlank text⟩
  else readNormals enclosing .leading (skipBlank text)

def startShadows : List Char → Except Fault (List String × List Char)
  | ';' :: rest => readShadows rest
  | rest => .ok ([], rest)

/-- the tree of what was read, if nothing is left of the text -/
def finishList (normals : Normals) (enclosing : Enclosing) (found : List String × List Char) : Except Fault Node :=
  if (skipBlank found.2).isEmpty then .ok (.ofNodes .args (normals.nodes enclosing ++ found.1.map shadowNode))
  else .error (.expected .endOfText (skipBlank found.2))

/-- what is checked and read after the ordinary parameters -/
def finishNormals (enclosing : Enclosing) (normals : Normals) : Except Fault Node :=
  if normals.comma = true ∧ (enclosing ≠ .block ∨ normals.slot ≠ .leading) then
    .error (.expected .afterComma normals.rest)
  else (startShadows normals.rest).bind (finishList normals enclosing)

theorem finishList_eq (normals : Normals) (enclosing : Enclosing) (found : List String × List Char) :
    (do
      unless (skipBlank found.2).isEmpty do
        throw (.expected .endOfText (skipBlank found.2))
      return .ofNodes .args (normals.nodes enclosing ++ found.1.map shadowNode) : Except Fault Node) =
      finishList normals enclosing found := by
  unfold finishList
  cases (skipBlank found.2).isEmpty <;> rfl

theorem finishNormals_eq (enclosing : Enclosing) (normals : Normals) :
    (do
      if normals.comma = true ∧ (enclosing ≠ .block ∨ normals.slot ≠ .leading) then
        throw (.expected .afterComma normals.rest)
      let (shadows, rest) ← match normals.rest with
        | ';' :: rest => readShadows rest
        | rest => .ok ([], rest)
      let rest := skipBlank rest
      unless rest.isEmpty do
        throw (.expected .endOfText rest)
      return .ofNodes .args (normals.nodes enclosing ++ shadows.map shadowNode) : Except Fault Node) =
      finishNormals enclosing normals := by
  unfold finishNormals startShadows
  by_cases hcomma : normals.comma = true ∧ (enclosing ≠ .block ∨ normals.slot ≠ .leading)
  · simp only [if_pos hcomma]
    rfl
  · simp only [if_neg hcomma]
    split
    · cases readShadows _ with
      | error => rfl
      | ok found => exact finishList_eq normals enclosing found
    · exact finishList_eq normals enclosing ([], normals.rest)

/-- reading a list, stage by stage -/
theorem readList_eq (text : List Char) (enclosing : Enclosing) :
    readList text enclosing = (startNormals enclosing text).bind (finishNormals enclosing) := by
  unfold readList startNormals
  by_cases hend : atNormalsEnd (skipBlank text) = true
  · simp only [if_pos hend]
    exact finishNormals_eq enclosing ⟨[], .leading, false, skipBlank text⟩
  · simp only [if_neg hend]
    cases readNormals enclosing .leading (skipBlank text) with
    | error => rfl
    | ok normals => exact finishNormals_eq enclosing normals

namespace ListText

theorem skipBlank_shadowChars (names : List (Spelt String)) : skipBlank (shadowChars names) = shadowChars names := by
  cases names with
  | nil => rfl
  | cons => exact skipBlank_cons (by decide)

theorem atNormalsEnd_shadowChars (names : List (Spelt String)) : atNormalsEnd (shadowChars names) = true := by
  cases names <;> rfl

theorem startShadows_shadowChars {names : List (Spelt String)} (hspaced : ∀ name ∈ names, name.Spaced)
    (hspelt : ∀ name ∈ names, name.text = name.value.toList ∧ IsName name.value) :
    startShadows (shadowChars names) = .ok (values names, []) := by
  cases names with
  | nil => rfl
  | cons name later => exact readShadows_parts (List.cons_ne_nil _ _) hspaced hspelt

theorem startNormals_chars {list : ListText} {enclosing : Enclosing} (h : list.Valid enclosing) {last : Slot}
    (hlast : Slot.leading.run? ((values list.parts).map Item.kind) = some last) :
    startNormals enclosing list.chars = .ok ⟨values list.parts, last, list.comma, shadowChars list.names⟩ := by
  have hgap : skipBlank (list.gap ++ shadowChars list.names) = shadowChars list.names := by
    rw [skipBlank_append h.blanks, skipBlank_shadowChars]
  have hend : atNormalsEnd (skipBlank (list.gap ++ shadowChars list.names)) = true := by
    rw [hgap]
    exact atNormalsEnd_shadowChars list.names
  unfold startNormals chars
  by_cases hne : list.parts = []
  · have hcomma : list.comma = false := eq_false_of_ne_true fun hcomma => (h.extra hcomma).2.1 hne
    rw [hne] at hlast ⊢
    obtain rfl : Slot.leading = last := Option.some.inj hlast
    rw [hcomma, joined, if_neg Bool.false_ne_true, List.nil_append, List.nil_append, if_pos hend, hgap]
    rfl
  · rw [not_atNormalsEnd (begins_joined hne h.spaced h.spelt _), if_neg Bool.false_ne_true,
      readNormals_parts hne h.spaced h.spelt h.forwarding hlast list.comma hend, hgap]

/-- **A spelt list is read, in every layout.** -/
theorem readList_chars {list : ListText} {enclosing : Enclosing} (h : list.Valid enclosing) :
    readList list.chars enclosing = .ok (list.toNode enclosing) := by
  obtain ⟨last, hlast⟩ := Option.ne_none_iff_exists'.1 h.ordered
  have hcomma : ¬ (list.comma = true ∧ (enclosing ≠ .block ∨ last ≠ .leading)) := by
    rintro ⟨htrue, hother⟩
    obtain ⟨hblock, _, hleading⟩ := h.extra htrue
    rcases hother with hother | hother
    · exact hother hblock
    · exact hother (Option.some.inj (hlast.symm.trans hleading))
  rw [readList_eq, startNormals_chars h hlast]
  change finishNormals enclosing _ = _
  rw [finishNormals, if_neg hcomma, startShadows_shadowChars h.names_spaced h.names_spelt]
  rfl

end ListText

end RubySignature.Signature
