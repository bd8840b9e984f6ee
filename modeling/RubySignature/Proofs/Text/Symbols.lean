/-
The characters of symbols.

An identifier consists of characters that may stand in a name, so it has no final mark that could be dropped, and it can be
written as a bare symbol (`isPlainChars_of_isIdentifier`). `PlainName` says which names can be written as a bare symbol in
all, and `isPlainChars_iff` that these are the ones the test lets through.
-/
import RubySignature.Tree.Node

namespace RubySignature.Symbol

open Unicode

theorem isNameChar_of_isNameStart {c : Char} (h : isNameStart c = true) : isNameChar c = true := by
  unfold isNameStart at h
  unfold isNameChar isAlphanumeric
  rw [Bool.or_eq_true] at h ⊢
  rw [Bool.or_eq_true]
  rcases h with h | h
  · exact Or.inl (Or.inl h)
  · exact Or.inr h

theorem isNameChar_of_isIdentifier {name : List Char} (h : isIdentifier name = true) :
    name ≠ [] ∧ ∀ c ∈ name, isNameChar c = true := by
  cases name with
  | nil => exact absurd h Bool.false_ne_true
  | cons c name =>
    simp only [isIdentifier, Bool.and_eq_true, List.all_eq_true] at h
    refine ⟨List.cons_ne_nil _ _, ?_⟩
    intro d hd
    rcases List.mem_cons.1 hd with rfl | hd
    · exact isNameChar_of_isNameStart h.1
    · exact h.2 d hd

/-- a mark is dropped, or nothing -/
theorem eq_or_marked_of_dropMark (name : List Char) : name = dropMark name ∨
    ∃ mark, (mark = '?' ∨ mark = '!' ∨ mark = '=') ∧ name = dropMark name ++ [mark] := by
  unfold dropMark
  split
  · rename_i last hlast
    obtain ⟨init, rfl⟩ := List.getLast?_eq_some_iff.1 hlast
    split
    · rename_i hmark
      rw [Bool.or_eq_true, Bool.or_eq_true, beq_iff_eq, beq_iff_eq, beq_iff_eq, or_assoc] at hmark
      rw [List.dropLast_concat]
      exact Or.inr ⟨last, hmark, rfl⟩
    · exact Or.inl rfl
  · exact Or.inl rfl

section

variable {name : List Char}

theorem dropMark_of_isNameChar (h : ∀ c ∈ name, isNameChar c = true) : dropMark name = name := by
  rcases eq_or_marked_of_dropMark name with hsame | ⟨mark, hmark, hname⟩
  · exact hsame.symm
  · have hmem : mark ∈ name := by
      rw [hname]
      simp
    have hchar := h mark hmem
    rcases hmark with rfl | rfl | rfl <;> exact absurd hchar (by decide)

theorem isPlainChars_of_noSigil (h : ∀ c ∈ name.head?, c ≠ '@' ∧ c ≠ '$') :
    isPlainChars name = isIdentifier (dropMark name) := by
  unfold isPlainChars
  split
  · exact absurd rfl (h _ rfl).1
  · exact absurd rfl (h _ rfl).1
  · exact absurd rfl (h _ rfl).2
  · rfl

/-- Of the names without sigils and marks, the identifiers can be written as a bare symbol. -/
theorem isPlainChars_of_isNameChar (h : ∀ c ∈ name, isNameChar c = true) : isPlainChars name = isIdentifier name := by
  have hhead : ∀ c ∈ name.head?, c ≠ '@' ∧ c ≠ '$' := by
    intro c hc
    have hchar := h c (List.mem_of_mem_head? hc)
    constructor <;> rintro rfl <;> exact absurd hchar (by decide)
  rw [isPlainChars_of_noSigil hhead, dropMark_of_isNameChar h]

/-- An identifier can be written as a bare symbol. -/
theorem isPlainChars_of_isIdentifier (h : isIdentifier name = true) : isPlainChars name = true :=
  (isPlainChars_of_isNameChar (isNameChar_of_isIdentifier h).2).trans h

end

/-! ## Names of bare symbols -/

/-- a letter or a low line, and then letters, numbers and low lines -/
inductive Identifier : List Char → Prop where
  | intro {c : Char} {rest : List Char} (hstart : isAlphabetic c = true ∨ c = '_')
    (hrest : ∀ d ∈ rest, isAlphanumeric d = true ∨ d = '_') : Identifier (c :: rest)

/-- an identifier, with at most one mark at its end or a sigil before it -/
inductive PlainName : List Char → Prop where
  | word {word : List Char} (h : Identifier word) : PlainName word
  | marked {word : List Char} {mark : Char} (h : Identifier word) (hmark : mark = '?' ∨ mark = '!' ∨ mark = '=') :
    PlainName (word ++ [mark])
  | sigil {sigil word : List Char} (hsigil : sigil = ['@'] ∨ sigil = ['@', '@'] ∨ sigil = ['$'])
    (h : Identifier word) : PlainName (sigil ++ word)

theorem isIdentifier_iff {name : List Char} : isIdentifier name = true ↔ Identifier name := by
  constructor
  · intro h
    cases name with
    | nil => cases h
    | cons c rest =>
      simp only [isIdentifier, isNameStart, isNameChar, Bool.and_eq_true, Bool.or_eq_true, beq_iff_eq,
        List.all_eq_true] at h
      exact .intro h.1 h.2
  · rintro ⟨hstart, hrest⟩
    simp only [isIdentifier, isNameStart, isNameChar, Bool.and_eq_true, Bool.or_eq_true, beq_iff_eq, List.all_eq_true]
    exact ⟨hstart, hrest⟩

theorem dropMark_concat (word : List Char) {mark : Char} (h : mark = '?' ∨ mark = '!' ∨ mark = '=') :
    dropMark (word ++ [mark]) = word := by
  unfold dropMark
  rw [List.getLast?_concat]
  dsimp only
  rw [List.dropLast_concat]
  rcases h with rfl | rfl | rfl <;> rfl

/-- an identifier does not begin with a sigil, whatever comes after it -/
theorem Identifier.noSigil {word : List Char} (h : Identifier word) (rest : List Char) :
    ∀ c ∈ (word ++ rest).head?, c ≠ '@' ∧ c ≠ '$' := by
  obtain ⟨hstart, -⟩ := h
  intro c hc
  obtain rfl := Option.some.inj hc
  constructor <;> rintro rfl <;> exact absurd hstart (by decide)

theorem Identifier.isNameChar {word : List Char} (h : Identifier word) : ∀ c ∈ word, isNameChar c = true :=
  (isNameChar_of_isIdentifier (isIdentifier_iff.2 h)).2

/-- **Which names can be written as a bare symbol.** -/
theorem isPlainChars_iff {name : List Char} : isPlainChars name = true ↔ PlainName name := by
  constructor
  · intro h
    unfold isPlainChars at h
    split at h
    · rename_i word
      have hname : PlainName (['@', '@'] ++ word) := .sigil (Or.inr (Or.inl rfl)) (isIdentifier_iff.1 h)
      exact hname
    · rename_i word _
      have hname : PlainName (['@'] ++ word) := .sigil (Or.inl rfl) (isIdentifier_iff.1 h)
      exact hname
    · rename_i word
      have hname : PlainName (['$'] ++ word) := .sigil (Or.inr (Or.inr rfl)) (isIdentifier_iff.1 h)
      exact hname
    · have hword := isIdentifier_iff.1 h
      rcases eq_or_marked_of_dropMark name with hsame | ⟨mark, hmark, hname⟩
      · rw [hsame]
        exact .word hword
      · rw [hname]
        exact .marked hword hmark
  · intro h
    cases h with
    | word h => exact isPlainChars_of_isIdentifier (isIdentifier_iff.2 h)
    | marked h hmark =>
      rw [isPlainChars_of_noSigil (h.noSigil _), dropMark_concat _ hmark]
      exact isIdentifier_iff.2 h
    | @sigil _ word hsigil h =>
      have hword := isIdentifier_iff.2 h
      rcases hsigil with rfl | rfl | rfl
      · rw [List.singleton_append, isPlainChars]
        · exact hword
        · -- there is not a second sigil
          rintro rest rfl
          exact absurd rfl (h.noSigil [] '@' rfl).1
      · exact hword
      · exact hword

namespace PlainName

variable {name : List Char}

theorem ne_nil (h : PlainName name) : name ≠ [] := by
  cases h with
  | word h =>
    cases h
    exact List.cons_ne_nil _ _
  | marked => exact List.append_ne_nil_of_right_ne_nil _ (List.cons_ne_nil _ _)
  | sigil hsigil => rcases hsigil with rfl | rfl | rfl <;> exact List.cons_ne_nil _ _

theorem sort_of_mem (h : PlainName name) {c : Char} (hc : c ∈ name) :
    isNameChar c = true ∨ c ∈ ['?', '!', '=', '@', '$'] := by
  cases h with
  | word h => exact Or.inl (h.isNameChar c hc)
  | marked h hmark =>
    rcases List.mem_append.1 hc with hc | hc
    · exact Or.inl (h.isNameChar c hc)
    · obtain rfl := List.mem_singleton.1 hc
      right
      rcases hmark with rfl | rfl | rfl <;> decide
  | @sigil sigil _ hsigil h =>
    have hmarks : ∀ d ∈ sigil, d ∈ ['?', '!', '=', '@', '$'] := by rcases hsigil with rfl | rfl | rfl <;> simp
    rcases List.mem_append.1 hc with hc | hc
    · exact Or.inr (hmarks c hc)
    · exact Or.inl (h.isNameChar c hc)

end PlainName

end RubySignature.Symbol
