/-
The tokens of a printed tree.

Each leaf is printed as one token: reading it where a printed tree goes on, with a blank or a closing parenthesis
(`Ends`), gives back the leaf and stops at its end. The one leaf without a token is a number that is not finite
(`next_notFinite`).
-/
import RubySignature.Proofs.Double.ReadBack
import RubySignature.Proofs.Text.Symbols
import RubySignature.Sexp.Printer
import RubySignature.Sexp.Token

namespace RubySignature

/-! ## Quoted text -/

namespace Quoted

theorem scan?_cons {c : Char} (hquote : c ≠ '"') (hback : c ≠ '\\') (rest : List Char) :
    scan? (c :: rest) = (scan? rest).map fun (text, rest) => (c :: text, rest) := by
  rw [scan?]
  · exact hquote
  · intro d tail hc
    exact absurd hc hback

/-- an escaped character is read as the character -/
theorem scan?_escape (c : Char) (rest : List Char) :
    scan? (escape c ++ rest) = (scan? rest).map fun (text, rest) => (c :: text, rest) := by
  unfold escape
  split
  · rfl
  · rfl
  · rfl
  · rfl
  · rfl
  · rename_i hquote hback _ _ _
    exact scan?_cons hquote hback rest

theorem chars_append (text rest : List Char) : chars text ++ rest = '"' :: (text.flatMap escape ++ '"' :: rest) := by
  rw [chars, List.append_assoc]
  rfl

/-- Quoted text is read as the text it was written for. -/
theorem scan?_flatMap_escape (text rest : List Char) : scan? (text.flatMap escape ++ '"' :: rest) = some (text, rest) := by
  induction text with
  | nil => rfl
  | cons c text ih =>
    rw [List.flatMap_cons, List.append_assoc, scan?_escape, ih]
    rfl

end Quoted

namespace Sexp

/-! ## Layout -/

/-- the text goes on as a printed tree does after a token: with a blank or a closing parenthesis -/
def Ends (rest : List Char) : Prop := rest.head? = some ' ' ∨ rest.head? = some ')'

theorem ends_blank (rest : List Char) : Ends (' ' :: rest) := Or.inl rfl

theorem ends_closing (rest : List Char) : Ends (')' :: rest) := Or.inr rfl

variable {rest : List Char}

theorem Ends.stops {p : Char → Bool} (h : Ends rest) (hblank : p ' ' = false) (hclosing : p ')' = false) :
    Stops p rest := by
  intro c hc
  rcases h with h | h
  · rw [h] at hc
    exact Option.mem_some.1 hc ▸ hblank
  · rw [h] at hc
    exact Option.mem_some.1 hc ▸ hclosing

theorem eq_of_isSpace {c : Char} (h : isSpace c = true) : c = ' ' ∨ c = '\t' ∨ c = '\r' ∨ c = '\n' := by
  simpa only [isSpace, Bool.or_eq_true, beq_iff_eq, or_assoc] using h

theorem skip_blank (s : List Char) : skip (' ' :: s) = skip s := by
  rw [skip]
  exact if_pos (by decide)

theorem skip_cons {c : Char} (hspace : isSpace c = false) (hhash : c ≠ '#') (s : List Char) :
    skip (c :: s) = c :: s := by
  rw [skip, hspace, if_neg Bool.false_ne_true, if_neg (by simpa using hhash)]

/-! ## Names -/

theorem isBareChar_of_isNameChar {c : Char} (h : Unicode.isNameChar c = true) : isBareChar c = true := by
  by_contra hbare
  have hc : (((isSpace c = true ∨ c = '(') ∨ c = ')') ∨ c = '"') ∨ c = '#' := by
    simpa only [isBareChar, Bool.not_eq_true', Bool.not_eq_false, Bool.or_eq_true, beq_iff_eq] using hbare
  rcases hc with (((hspace | rfl) | rfl) | rfl) | rfl
  · rcases eq_of_isSpace hspace with rfl | rfl | rfl | rfl <;> exact absurd h (by decide)
  · exact absurd h (by decide)
  · exact absurd h (by decide)
  · exact absurd h (by decide)
  · exact absurd h (by decide)

/-- A name that is printed bare consists of characters that a bare symbol may have. -/
theorem isBareChar_of_isPlain {name : List Char} (h : Symbol.isPlainChars name = true) :
    name ≠ [] ∧ ∀ c ∈ name, isBareChar c = true := by
  have hplain := Symbol.isPlainChars_iff.1 h
  have hmarks : ∀ c ∈ ['?', '!', '=', '@', '$'], isBareChar c = true := List.all_eq_true.1 rfl
  refine ⟨hplain.ne_nil, fun c hc => ?_⟩
  rcases hplain.sort_of_mem hc with hchar | hmark
  · exact isBareChar_of_isNameChar hchar
  · exact hmarks c hmark

/-! ## Nodes -/

/-- A node's name is one the reader takes as a whole. -/
theorem exists_chars_name (kind : Kind) : ∃ c word, kind.name.toList = c :: word ∧ isKindStart c = true ∧
    word.all isKindChar = true := by
  cases kind <;> exact ⟨_, _, rfl, by decide, by decide⟩

theorem isKindStart_visible {c : Char} (h : isKindStart c = true) : isSpace c = false ∧ c ≠ '#' := by
  refine ⟨?_, ?_⟩
  · by_contra hspace
    rcases eq_of_isSpace (Bool.eq_true_of_not_eq_false hspace) with rfl | rfl | rfl | rfl <;>
      exact absurd h (by decide)
  · rintro rfl
    exact absurd h (by decide)

theorem scanKind?_name (kind : Kind) (h : Ends rest) :
    scanKind? (skip (kind.name.toList ++ rest)) = some (kind.name, rest) := by
  obtain ⟨c, word, hname, hstart, hword⟩ := exists_chars_name kind
  have hchars : ∀ d ∈ word, isKindChar d = true := List.all_eq_true.1 hword
  have hstop : Stops isKindChar rest := h.stops (by decide) (by decide)
  obtain ⟨hspace, hhash⟩ := isKindStart_visible hstart
  rw [hname, List.cons_append, skip_cons hspace hhash, scanKind?, if_pos hstart, takeWhile_append_of_stops hchars hstop,
    dropWhile_append_of_stops hchars hstop, ← hname, String.ofList_toList]

theorem next_paren (s : List Char) :
    Token.next ('(' :: s) =
      match scanKind? (skip s) with
      | some (name, rest) => .ok (.opening name, rest)
      | none => .error ⟨.kindName, skip s⟩ := rfl

theorem next_opening (kind : Kind) (h : Ends rest) :
    Token.next ('(' :: (kind.name.toList ++ rest)) = .ok (.opening kind.name, rest) := by
  rw [next_paren, scanKind?_name kind h]

theorem next_closing (rest : List Char) : Token.next (')' :: rest) = .ok (.closing, rest) := rfl

/-- where a token starts there is no layout to pass over -/
theorem skip_of_next {s : List Char} {result : Token × List Char} (h : Token.next s = .ok result) : skip s = s := by
  cases s with
  | nil => rfl
  | cons c s =>
    refine skip_cons ?_ ?_ s
    · by_contra hspace
      rcases eq_of_isSpace (Bool.eq_true_of_not_eq_false hspace) with rfl | rfl | rfl | rfl <;> cases h
    · rintro rfl
      cases h

/-! ## Leaves -/

theorem next_colon (s : List Char) :
    Token.next (':' :: s) =
      match scanSymbol? s with
      | some (name, rest) => .ok (.leaf (.symbol name), rest)
      | none => .error ⟨.symbolName, s⟩ := rfl

theorem next_quote (s : List Char) :
    Token.next ('"' :: s) =
      match (Quoted.scan? s).map fun (text, rest) => (Leaf.str (String.ofList text), rest) with
      | some (value, rest) => .ok (.leaf value, rest)
      | none => .error ⟨.item, '"' :: s⟩ := rfl

theorem next_nilWord (s : List Char) :
    Token.next ('n' :: 'i' :: 'l' :: s) =
      match if s.head?.any isKindChar then none else some (Leaf.nil, s) with
      | some (value, rest) => .ok (.leaf value, rest)
      | none => .error ⟨.item, 'n' :: 'i' :: 'l' :: s⟩ := rfl

theorem scanSymbol?_bare {name : List Char} (hne : name ≠ []) (hbare : ∀ c ∈ name, isBareChar c = true)
    (hrest : Stops isBareChar rest) : scanSymbol? (name ++ rest) = some (String.ofList name, rest) := by
  unfold scanSymbol?
  split
  · -- a bare name does not open with a quote
    rename_i heq
    obtain ⟨c, word, rfl⟩ := List.exists_cons_of_ne_nil hne
    have hc := hbare c List.mem_cons_self
    rw [(List.cons.inj heq).1] at hc
    exact absurd hc (by decide)
  · rw [takeWhile_append_of_stops hbare hrest, dropWhile_append_of_stops hbare hrest]
    exact if_neg (by simpa using hne)

theorem scanSymbol?_quoted (name rest : List Char) :
    scanSymbol? (Quoted.chars name ++ rest) = some (String.ofList name, rest) := by
  have hscan := congrArg (Option.map fun (name, rest) => (String.ofList name, rest))
    (Quoted.scan?_flatMap_escape name rest)
  rw [Quoted.chars_append]
  exact hscan

theorem next_symbol (name : String) (h : Ends rest) :
    Token.next (symbolChars name ++ rest) = .ok (.leaf (.symbol name), rest) := by
  unfold symbolChars
  rw [List.cons_append, next_colon]
  by_cases hplain : Symbol.isPlain name = true
  · obtain ⟨hne, hbare⟩ := isBareChar_of_isPlain hplain
    rw [if_pos hplain, scanSymbol?_bare hne hbare (h.stops (by decide) (by decide)), String.ofList_toList]
  · rw [if_neg hplain, scanSymbol?_quoted, String.ofList_toList]

theorem next_str (text : String) (rest : List Char) :
    Token.next (Quoted.chars text.toList ++ rest) = .ok (.leaf (.str text), rest) := by
  rw [Quoted.chars_append, next_quote, Quoted.scan?_flatMap_escape, Option.map_some]
  dsimp only
  rw [String.ofList_toList]

theorem next_nil (h : Ends rest) : Token.next (['n', 'i', 'l'] ++ rest) = .ok (.leaf .nil, rest) := by
  have hstop : rest.head?.any isKindChar = false := by
    rcases h with h | h <;> rw [h] <;> decide
  simp only [List.cons_append, List.nil_append]
  rw [next_nilWord, hstop]
  rfl

/-! ## Numbers -/

/-- A number begins with a minus sign or a digit. -/
theorem next_number {c : Char} (hc : c = '-' ∨ c.isDigit = true) (s : List Char) :
    Token.next (c :: s) =
      match Numeral.scan? (c :: s), scanInteger? (c :: s) with
      | some (numeral, rest), _ => .ok (.leaf (.float numeral.toDouble), rest)
      | none, some (spelling, rest) => .ok (.leaf (.integer spelling), rest)
      | none, none => .error ⟨.item, c :: s⟩ := by
  have hne : c ≠ '(' ∧ c ≠ ')' ∧ c ≠ ':' ∧ c ≠ '"' ∧ c ≠ 'n' := by
    refine ⟨?_, ?_, ?_, ?_, ?_⟩ <;> rintro rfl <;> rcases hc with hc | hc <;> exact absurd hc (by decide)
  unfold Token.next
  split
  · rename_i heq
    exact absurd (List.cons.inj heq).1 hne.1
  · rename_i heq
    exact absurd (List.cons.inj heq).1 hne.2.1
  · rename_i heq
    exact absurd (List.cons.inj heq).1 hne.2.2.1
  · rw [scanLeaf?]
    · cases Numeral.scan? (c :: s) with
      | some => rfl
      | none =>
        cases scanInteger? (c :: s) with
        | some => rfl
        | none => rfl
    · exact fun rest heq => hne.2.2.2.1 (List.cons.inj heq).1
    · exact fun rest heq => hne.2.2.2.2 (List.cons.inj heq).1

theorem scanSign_intChars (i : Int) (rest : List Char) :
    Numeral.scanSign (intChars i ++ rest) = (decide (i < 0), natChars i.natAbs ++ rest) := by
  unfold intChars
  by_cases hi : i < 0
  · rw [if_pos hi, decide_eq_true hi]
    rfl
  · rw [if_neg hi, decide_eq_false hi]
    exact Numeral.scanSign_of_isDigit (natChars_ne_nil _) fun _ => isDigit_of_mem_natChars

/-- an integer is not taken for the start of a longer number -/
theorem scan?_intChars (i : Int) (hrest : Stops Numeral.continues rest) :
    Numeral.scan? (intChars i ++ rest) = none := by
  have hdigits : ∀ c ∈ natChars i.natAbs, c.isDigit = true := fun _ => isDigit_of_mem_natChars
  have hdigit := Numeral.stops_isDigit hrest
  have hfraction : Numeral.scanFraction? rest = none :=
    Numeral.scanFraction?_none (Numeral.stops_exponentChars 0 hrest).2
  have hexponent : Numeral.scanExponent? rest = none := Numeral.scanExponent?_exponentChars 0 hrest
  unfold Numeral.scan?
  simp only [scanSign_intChars, digitRun_append hdigits hdigit, afterDigits_append hdigits hdigit, hfraction, hexponent,
    ite_self]

theorem scanInteger?_intChars (i : Int) (hrest : Stops Char.isDigit rest) :
    scanInteger? (intChars i ++ rest) = some (String.ofList (intChars i), rest) := by
  have hdigits : ∀ c ∈ natChars i.natAbs, c.isDigit = true := fun _ => isDigit_of_mem_natChars
  have hne : (natChars i.natAbs).isEmpty = false := by simpa using natChars_ne_nil i.natAbs
  unfold scanInteger?
  simp only [scanSign_intChars, digitRun_append hdigits hrest, afterDigits_append hdigits hrest, hne]
  unfold intChars
  by_cases hi : i < 0
  · rw [if_pos hi, decide_eq_true hi]
    rfl
  · rw [if_neg hi, decide_eq_false hi]
    rfl

/-- a written integer begins as a number does -/
theorem number_intChars (i : Int) : ∃ c s, intChars i = c :: s ∧ (c = '-' ∨ c.isDigit = true) := by
  unfold intChars
  by_cases hi : i < 0
  · exact ⟨'-', _, if_pos hi, Or.inl rfl⟩
  · obtain ⟨c, s, hcs⟩ := List.exists_cons_of_ne_nil (natChars_ne_nil i.natAbs)
    refine ⟨c, s, (if_neg hi).trans hcs, Or.inr (isDigit_of_mem_natChars (n := i.natAbs) ?_)⟩
    rw [hcs]
    exact List.mem_cons_self

/-- a written numeral begins as a number does -/
theorem number_chars {n : Numeral} (hn : n.WellFormed) :
    ∃ c s, n.chars = c :: s ∧ (c = '-' ∨ c.isDigit = true) := by
  unfold Numeral.chars
  by_cases hneg : n.negative = true
  · rw [if_pos hneg]
    exact ⟨'-', _, rfl, Or.inl rfl⟩
  · obtain ⟨c, s, hcs⟩ := List.exists_cons_of_ne_nil hn.whole_ne_nil
    refine ⟨c, s ++ Numeral.fractionChars n.fraction ++ Numeral.exponentChars n.exponent, ?_, Or.inr ?_⟩
    · rw [if_neg hneg, hcs]
      rfl
    · exact hn.whole_digits c (hcs ▸ List.mem_cons_self)

theorem next_int (value : Int64) (h : Ends rest) :
    Token.next (intChars value.toInt ++ rest) =
      .ok (.leaf (.integer (String.ofList (intChars value.toInt))), rest) := by
  have hstop : Stops Numeral.continues rest := h.stops (by decide) (by decide)
  obtain ⟨c, s, hcs, hc⟩ := number_intChars value.toInt
  have hnext := next_number hc (s ++ rest)
  rw [← List.cons_append, ← hcs, scan?_intChars _ hstop, scanInteger?_intChars _ (Numeral.stops_isDigit hstop)] at hnext
  exact hnext

theorem next_finite {x : Double} (hx : x.isFinite = true) (h : Ends rest) :
    Token.next (x.chars ++ rest) = .ok (.leaf (.float x), rest) := by
  obtain ⟨n, hnumeral, hwell, hread⟩ := Double.numeral?_readBack hx
  have hchars : x.chars = n.chars := by
    unfold Double.chars
    rw [hnumeral]
  obtain ⟨c, s, hcs, hc⟩ := number_chars hwell
  have hnext := next_number hc (s ++ rest)
  rw [← List.cons_append, ← hcs, Numeral.scan?_chars hwell (h.stops (by decide) (by decide))] at hnext
  rw [hchars, hnext]
  dsimp only
  rw [hread]

/-- **No token starts where a number that is not finite is printed.** -/
theorem next_notFinite {x : Double} (hx : x.isFinite = false) (rest : List Char) :
    Token.next (skip (x.chars ++ rest)) = .error ⟨.item, x.chars ++ rest⟩ := by
  cases x with
  | nan => rfl
  | infinite negative => cases negative <;> rfl
  | finite negative rank => cases hx

end Sexp

end RubySignature
