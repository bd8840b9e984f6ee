/-
White space and names in a parameter list.

A character of white space never belongs to a name or a number, so a name that is followed by white space or by one of
the marks that end a parameter (`Closes`) is taken as a whole. What is true of the white space characters one by one is
read off their table (`not_of_isBlank`).
-/
import RubySignature.Proofs.Text.Runs
import RubySignature.Signature.Item

namespace RubySignature.Signature

open Unicode

/-! ## White space -/

theorem mem_range_of_covers {table : RangeTable} {code : Nat} (h : table.covers code = true) :
    ∃ range ∈ table, code ∈ List.range' range.1 (range.2 + 1 - range.1) := by
  induction table with
  | nil => cases h
  | cons range later ih =>
    obtain ⟨first, last⟩ := range
    rw [RangeTable.covers] at h
    split at h
    · cases h
    · split at h
      · refine ⟨(first, last), List.mem_cons_self, ?_⟩
        rw [List.mem_range'_1]
        dsimp only
        omega
      · obtain ⟨range, hmem, hcode⟩ := ih h
        exact ⟨range, List.mem_cons_of_mem _ hmem, hcode⟩

/-- every white space character falsifies the predicate -/
def NoBlank (p : Char → Bool) : Bool :=
  blankTable.all fun range => (List.range' range.1 (range.2 + 1 - range.1)).all fun code => !p (Char.ofNat code)

theorem not_of_isBlank {p : Char → Bool} (hp : NoBlank p = true) {c : Char} (hc : isBlank c = true) : p c = false := by
  obtain ⟨range, hrange, hcode⟩ := mem_range_of_covers hc
  have hnot := List.all_eq_true.1 (List.all_eq_true.1 hp range hrange) c.toNat hcode
  rw [Char.ofNat_toNat] at hnot
  simpa using hnot

theorem noBlank_isNameChar : NoBlank isNameChar = true := by
  decide +kernel

theorem noBlank_isDigit : NoBlank Char.isDigit = true := by
  decide +kernel

/-- a run of white space, possibly of no length -/
def Blanks (s : List Char) : Prop := ∀ c ∈ s, isBlank c = true

theorem blanks_nil : Blanks [] := by
  intro c hc
  cases hc

theorem blanks_space : Blanks [' '] := by
  intro c hc
  rw [List.mem_singleton.1 hc]
  rfl

variable {s rest blanks : List Char} {c : Char}

theorem skipBlank_append (h : Blanks blanks) : skipBlank (blanks ++ s) = skipBlank s :=
  List.dropWhile_append_of_pos h

theorem skipBlank_cons (h : isBlank c = false) : skipBlank (c :: s) = c :: s :=
  List.dropWhile_cons_of_neg (by rw [h]; exact Bool.false_ne_true)

theorem skipBlank_append_cons (h : Blanks blanks) (hc : isBlank c = false) (s : List Char) :
    skipBlank (blanks ++ c :: s) = c :: s := by
  rw [skipBlank_append h, skipBlank_cons hc]

theorem skipBlank_of_blanks (h : Blanks blanks) : skipBlank blanks = [] := by
  rw [← List.append_nil blanks, skipBlank_append h]
  rfl

theorem stops_blanks {p : Char → Bool} (hp : NoBlank p = true) (h : Blanks blanks) (hs : Stops p s) :
    Stops p (blanks ++ s) := by
  cases blanks with
  | nil => exact hs
  | cons c blanks =>
    rw [List.cons_append, stops_cons]
    exact not_of_isBlank hp (h c List.mem_cons_self)

theorem stops_skipBlank (s : List Char) : Stops isBlank (skipBlank s) := by
  intro c hc
  have hnot := List.head?_dropWhile_not isBlank s
  unfold skipBlank at hc
  rw [hc] at hnot
  exact hnot

theorem skipBlank_skipBlank (s : List Char) : skipBlank (skipBlank s) = skipBlank s :=
  dropWhile_of_stops (stops_skipBlank s)

/-! ## The end of a parameter -/

/-- the text goes on as it may after a parameter: after white space, if any, comes a comma, a semicolon, a closing
parenthesis or nothing -/
def Closes (rest : List Char) : Prop := atParamEnd (skipBlank rest) = true

theorem closes_of_skipBlank (h : skipBlank s = rest) (hend : atParamEnd rest = true) : Closes s := by
  unfold Closes
  rw [h]
  exact hend

/-- What follows a parameter does not go on with a name, a number, a colon or an equals sign. -/
theorem Closes.stops {p : Char → Bool} (h : Closes rest) (hblank : NoBlank p = true) (hcomma : p ',' = false)
    (hsemicolon : p ';' = false) (hparenthesis : p ')' = false) : Stops p rest := by
  cases rest with
  | nil => exact stops_nil p
  | cons c rest =>
    rw [stops_cons]
    by_cases hc : isBlank c = true
    · exact not_of_isBlank hblank hc
    · unfold Closes at h
      rw [skipBlank_cons (eq_false_of_ne_true hc)] at h
      have hmark : (c = ',' ∨ c = ';') ∨ c = ')' := by simpa [atParamEnd] using h
      rcases hmark with (rfl | rfl) | rfl
      · exact hcomma
      · exact hsemicolon
      · exact hparenthesis

/-! ## Names -/

/-- a name: letters, numbers and low lines, at least one of them -/
def IsName (name : String) : Prop := name.toList ≠ [] ∧ ∀ c ∈ name.toList, isNameChar c = true

instance (name : String) : Decidable (IsName name) :=
  -- over the characters of the name, not over all characters
  have : Decidable (∀ c ∈ name.toList, isNameChar c = true) := List.decidableBAll _ _
  inferInstanceAs (Decidable (_ ∧ _))

/-- the node of a splat or block parameter, which may have a name -/
def starNode (kind : Kind) (name? : Option String) : Node := ⟨kind, name?.toList.map Child.symbol⟩

theorem scanName?_name {name : String} (h : IsName name) (hrest : Stops isNameChar rest) :
    scanName? (name.toList ++ rest) = some (name, rest) := by
  unfold scanName?
  rw [takeWhile_append_of_stops h.2 hrest, dropWhile_append_of_stops h.2 hrest, String.ofList_toList]
  exact if_neg (by simpa using h.1)

theorem scanName?_none (h : Stops isNameChar s) : scanName? s = none := by
  unfold scanName?
  rw [takeWhile_of_stops h]
  rfl

theorem readName_name {name : String} (h : IsName name) (hrest : Stops isNameChar rest) :
    readName (name.toList ++ rest) = .ok (name, rest) := by
  unfold readName
  rw [scanName?_name h hrest]

theorem IsName.head {name : String} (h : IsName name) : ∃ c s, name.toList = c :: s ∧ isNameChar c = true := by
  obtain ⟨c, s, hcs⟩ := List.exists_cons_of_ne_nil h.1
  exact ⟨c, s, hcs, h.2 c (hcs ▸ List.mem_cons_self)⟩

/-- a name does not begin with a mark -/
theorem IsName.stops {name : String} (h : IsName name) {mark : Char} (hmark : isNameChar mark = false) (rest : List Char) :
    Stops (· == mark) (name.toList ++ rest) := by
  obtain ⟨c, s, hcs, hc⟩ := h.head
  rw [hcs, List.cons_append, stops_cons, beq_eq_false_iff_ne]
  exact ne_of_sort hc hmark

/-! ## The beginning of a parameter -/

/-- the text begins as a parameter or a default value may: with no white space and no mark that ends a parameter -/
def Begins (text : List Char) : Prop := ∃ c s, text = c :: s ∧ isBlank c = false ∧ atParamEnd (c :: s) = false

theorem begins_cons (hblank : isBlank c = false) (hmark : atParamEnd [c] = false) (s : List Char) : Begins (c :: s) :=
  ⟨c, s, rfl, hblank, hmark⟩

theorem begins_of {p : Char → Bool} (hc : p c = true) (hblank : NoBlank p = true)
    (hmark : p ',' = false ∧ p ';' = false ∧ p ')' = false) (s : List Char) : Begins (c :: s) := by
  obtain ⟨hcomma, hsemicolon, hparenthesis⟩ := hmark
  apply begins_cons
  · apply eq_false_of_ne_true
    intro hspace
    rw [not_of_isBlank hblank hspace] at hc
    cases hc
  · simp [atParamEnd, ne_of_sort hc hcomma, ne_of_sort hc hsemicolon, ne_of_sort hc hparenthesis]

theorem begins_nameChar (hc : isNameChar c = true) (s : List Char) : Begins (c :: s) :=
  begins_of hc noBlank_isNameChar (by decide) s

theorem begins_digit (hc : c.isDigit = true) (s : List Char) : Begins (c :: s) :=
  begins_of hc noBlank_isDigit (by decide) s

theorem IsName.begins {name : String} (h : IsName name) : Begins name.toList := by
  obtain ⟨c, s, hcs, hc⟩ := h.head
  rw [hcs]
  exact begins_nameChar hc s

theorem Begins.append {text : List Char} (h : Begins text) (rest : List Char) : Begins (text ++ rest) := by
  obtain ⟨c, s, rfl, hblank, hmark⟩ := h
  exact ⟨c, s ++ rest, rfl, hblank, hmark⟩

theorem Begins.skipBlank_eq (h : Begins s) : skipBlank s = s := by
  obtain ⟨c, s, rfl, hblank, _⟩ := h
  exact skipBlank_cons hblank

theorem Begins.not_atParamEnd (h : Begins s) : atParamEnd s = false := by
  obtain ⟨c, s, rfl, _, hmark⟩ := h
  exact hmark

end RubySignature.Signature
