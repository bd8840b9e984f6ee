/-
The scanners take the tokens of the grammar.

The reader skips all the layout there is and takes one token off the front of what is left; the grammar allows any layout
and any token that fits. They agree because a token never starts with layout, so that skipping everything loses nothing
(`skip_of_layout`), and because each scanner takes exactly the token that the grammar has at that place (`next_iff`).
-/
import RubySignature.Proofs.Sexp.Numbers
import RubySignature.Proofs.Sexp.Tokens

namespace RubySignature.Sexp

variable {s rest : List Char}

/-! ## Layout -/

theorem isSpace_of_isLineEnd {c : Char} (h : isLineEnd c = true) : isSpace c = true := by
  simp only [isLineEnd, Bool.or_eq_true, beq_iff_eq] at h
  rcases h with rfl | rfl <;> rfl

theorem skip_space {c : Char} (h : isSpace c = true) (s : List Char) : skip (c :: s) = skip s := by
  rw [skip, if_pos h]

theorem skip_hash (s : List Char) : skip ('#' :: s) = skipComment s := by
  rw [skip, if_neg (by decide), if_pos (by decide)]

mutual

/-- what is skipped is layout -/
theorem layout_skip : (s : List Char) → Layout s (skip s)
  | [] => by
    rw [skip]
    exact .none []
  | c :: s => by
    by_cases hspace : isSpace c = true
    · rw [skip_space hspace]
      exact .blank hspace (layout_skip s)
    · by_cases hhash : c = '#'
      · obtain ⟨body, next, rfl, hbody, hend, hnext⟩ := layout_skipComment s
        rw [hhash, skip_hash]
        exact .comment hbody hend hnext
      · rw [skip_cons (Bool.eq_false_of_not_eq_true hspace) hhash]
        exact .none _

/-- a comment ends at a line end, and what is skipped after it is layout -/
theorem layout_skipComment : (s : List Char) → ∃ body next, s = body ++ next ∧ (∀ c ∈ body, isLineEnd c = false) ∧
    (∀ c ∈ next.head?, isLineEnd c = true) ∧ Layout next (skipComment s)
  | [] => ⟨[], [], rfl, by simp, by simp, .none []⟩
  | c :: s => by
    by_cases hend : isLineEnd c = true
    · have hskip : skipComment (c :: s) = skip s := by rw [skipComment, if_pos hend]
      refine ⟨[], c :: s, rfl, by simp, by simpa using hend, ?_⟩
      rw [hskip]
      exact .blank (isSpace_of_isLineEnd hend) (layout_skip s)
    · have hskip : skipComment (c :: s) = skipComment s := by rw [skipComment, if_neg hend]
      obtain ⟨body, next, rfl, hbody, hnext, hlayout⟩ := layout_skipComment s
      refine ⟨c :: body, next, rfl, ?_, hnext, hskip ▸ hlayout⟩
      simpa using ⟨Bool.eq_false_of_not_eq_true hend, hbody⟩

end

theorem skipComment_append {body : List Char} (hbody : ∀ c ∈ body, isLineEnd c = false)
    (hend : ∀ c ∈ s.head?, isLineEnd c = true) : skipComment (body ++ s) = skip s := by
  induction body with
  | nil =>
    cases s with
    | nil => rw [List.nil_append, skipComment, skip]
    | cons c s =>
      have hc : isLineEnd c = true := hend c rfl
      rw [List.nil_append, skipComment, if_pos hc, skip_space (isSpace_of_isLineEnd hc)]
  | cons c body ih =>
    obtain ⟨hc, hbody⟩ := List.forall_mem_cons.1 hbody
    rw [List.cons_append, skipComment, hc, if_neg Bool.false_ne_true, ih hbody]

/-- **Some layout more or less makes no difference** to where the next token is. -/
theorem skip_of_layout {s t : List Char} (h : Layout s t) : skip s = skip t := by
  induction h with
  | none rest => rfl
  | blank hc hs ih => rw [skip_space hc, ih]
  | comment hbody hend hs ih => rw [skip_hash, skipComment_append hbody hend, ih]

/-! ## Tokens -/

theorem scanQuoted?_iff {text : List Char} : Quoted.scan? s = some (text, rest) ↔
    ∃ written, s = written ++ '"' :: rest ∧ QuotedText written text := by
  constructor
  · intro h
    fun_induction Quoted.scan? s generalizing text with
    | case1 => cases h
    | case2 s =>
      obtain ⟨rfl, rfl⟩ := Prod.mk.inj (Option.some.inj h)
      exact ⟨[], rfl, .nil⟩
    | case3 c s ih =>
      obtain ⟨⟨later, left⟩, hlater, heq⟩ := Option.map_eq_some_iff.1 h
      obtain ⟨rfl, rfl⟩ := Prod.mk.inj heq
      obtain ⟨written, rfl, hwritten⟩ := ih hlater
      exact ⟨'\\' :: c :: written, rfl, .escaped c hwritten⟩
    | case4 c s hquote hback ih =>
      obtain ⟨⟨later, left⟩, hlater, heq⟩ := Option.map_eq_some_iff.1 h
      obtain ⟨rfl, rfl⟩ := Prod.mk.inj heq
      have hplain : c ≠ '\\' := by
        rintro rfl
        cases s with
        | nil => cases hlater
        | cons d s => exact hback d s rfl rfl
      obtain ⟨written, rfl, hwritten⟩ := ih hlater
      exact ⟨c :: written, rfl, .plain hquote hplain hwritten⟩
  · rintro ⟨written, rfl, hwritten⟩
    induction hwritten with
    | nil => rfl
    | plain hquote hback h ih =>
      rw [List.cons_append, Quoted.scan?_cons hquote hback, ih]
      rfl
    | escaped c h ih =>
      rw [List.cons_append, List.cons_append, Quoted.scan?, ih]
      rfl

theorem scanSymbol?_iff {name : String} : scanSymbol? s = some (name, rest) ↔ LeafAt (.symbol name) (':' :: s) rest := by
  constructor
  · intro h
    unfold scanSymbol? at h
    split at h
    · rename_i s
      obtain ⟨⟨text, left⟩, htext, heq⟩ := Option.map_eq_some_iff.1 h
      obtain ⟨rfl, rfl⟩ := Prod.mk.inj heq
      obtain ⟨written, rfl, hwritten⟩ := scanQuoted?_iff.1 htext
      exact .quotedSymbol hwritten _
    · split at h
      · cases h
      · rename_i hne
        obtain ⟨rfl, rfl⟩ := Prod.mk.inj (Option.some.inj h)
        have hleaf := LeafAt.bareSymbol (by simpa using hne) (fun c => List.mem_takeWhile_imp) (stops_dropWhile isBareChar s)
        rwa [List.takeWhile_append_dropWhile] at hleaf
  · intro h
    cases h with
    | @quotedSymbol written text hwritten =>
      have hscan : Quoted.scan? (written ++ '"' :: rest) = some (text, rest) := scanQuoted?_iff.2 ⟨_, rfl, hwritten⟩
      rw [scanSymbol?, hscan]
      rfl
    | bareSymbol hne hname hrest => exact scanSymbol?_bare hne hname hrest

theorem openingAt_iff {name : String} {s rest : List Char} :
    OpeningAt name s rest ↔ ∃ tail, s = '(' :: tail ∧ scanKind? (skip tail) = some (name, rest) := by
  constructor
  · rintro ⟨hlayout, hstart, hword, hrest⟩
    refine ⟨_, rfl, ?_⟩
    obtain ⟨hspace, hhash⟩ := isKindStart_visible hstart
    rw [skip_of_layout hlayout, skip_cons hspace hhash, scanKind?, if_pos hstart, takeWhile_append_of_stops hword hrest,
      dropWhile_append_of_stops hword hrest]
  · rintro ⟨tail, rfl, h⟩
    have hlayout := layout_skip tail
    revert h hlayout
    generalize skip tail = s
    intro h hlayout
    cases s with
    | nil => cases h
    | cons c word =>
      rw [scanKind?] at h
      split at h
      · rename_i hstart
        obtain ⟨rfl, rfl⟩ := Prod.mk.inj (Option.some.inj h)
        refine .intro ?_ hstart (fun d => List.mem_takeWhile_imp) (stops_dropWhile isKindChar word)
        rwa [List.takeWhile_append_dropWhile]
      · cases h

inductive TokenAt : Token → List Char → List Char → Prop where
  | opening {name : String} {s rest : List Char} (h : OpeningAt name s rest) : TokenAt (.opening name) s rest
  | closing (rest : List Char) : TokenAt .closing (')' :: rest) rest
  | leaf {value : Leaf} {s rest : List Char} (h : LeafAt value s rest) : TokenAt (.leaf value) s rest

theorem number_head {spelling : List Char} (h : NumberText spelling) :
    ∃ c tail, spelling = c :: tail ∧ (c = '-' ∨ c.isDigit = true) := by
  have hhead (negative : Bool) {digits : List Char} (tail : List Char) (hdigits : Digits digits) :
      ∃ c later, minus negative ++ (digits ++ tail) = c :: later ∧ (c = '-' ∨ c.isDigit = true) := by
    cases negative with
    | true => exact ⟨'-', _, rfl, Or.inl rfl⟩
    | false =>
      obtain ⟨c, later, rfl⟩ := List.exists_cons_of_ne_nil hdigits.1
      exact ⟨c, later ++ tail, rfl, Or.inr (hdigits.2 c List.mem_cons_self)⟩
  rcases h with ⟨value, hinteger⟩ | hfloat
  · obtain ⟨negative, hdigits⟩ := hinteger
    have hinteger := hhead negative [] hdigits
    rwa [List.append_nil] at hinteger
  · obtain ⟨negative, whole, tail, hwhole, -, -, rfl⟩ := exists_whole hfloat
    exact hhead negative tail hwhole

theorem scanLeaf?_sound {value : Leaf} (h : scanLeaf? s = some (value, rest)) : LeafAt value s rest := by
  unfold scanLeaf? at h
  split at h
  · obtain ⟨⟨text, left⟩, htext, heq⟩ := Option.map_eq_some_iff.1 h
    obtain ⟨rfl, rfl⟩ := Prod.mk.inj heq
    obtain ⟨written, rfl, hwritten⟩ := scanQuoted?_iff.1 htext
    exact .str hwritten _
  · split at h
    · cases h
    · rename_i tail hword
      obtain ⟨rfl, rfl⟩ := Prod.mk.inj (Option.some.inj h)
      refine .nil ?_
      intro c hc
      rw [Option.mem_def.1 hc] at hword
      simpa using hword
  · split at h
    · rename_i n left hscan
      obtain ⟨rfl, rfl⟩ := Prod.mk.inj (Option.some.inj h)
      obtain ⟨spelling, rfl, hfloat, hvalue, hlongest⟩ := scan?_iff.1 ⟨n, hscan, rfl⟩
      exact .float hfloat hvalue hlongest
    · rename_i hnone
      obtain ⟨⟨t, left⟩, hscan, heq⟩ := Option.map_eq_some_iff.1 h
      obtain ⟨rfl, rfl⟩ := Prod.mk.inj heq
      obtain ⟨spelling, value, rfl, hinteger, rfl, hlongest⟩ := scanInteger?_iff.1 ⟨hnone, hscan⟩
      exact .integer hinteger hlongest

theorem next_of_leafAt {value : Leaf} (h : LeafAt value s rest) : Token.next s = .ok (.leaf value, rest) := by
  cases h with
  | quotedSymbol hwritten =>
    rw [next_colon, scanSymbol?_iff.2 (.quotedSymbol hwritten rest)]
  | bareSymbol hne hname hrest =>
    rw [next_colon, scanSymbol?_iff.2 (.bareSymbol hne hname hrest)]
  | str hwritten =>
    rw [next_quote, scanQuoted?_iff.2 ⟨_, rfl, hwritten⟩]
    rfl
  | nil hrest =>
    have hword : rest.head?.any isKindChar = false := by
      cases rest with
      | nil => rfl
      | cons c rest => exact (stops_cons _ _ _).1 hrest
    rw [next_nilWord, hword]
    rfl
  | @integer spelling _ value hinteger hlongest =>
    obtain ⟨hnone, hscan⟩ := scanInteger?_iff.2 ⟨spelling, value, rfl, hinteger, rfl, hlongest⟩
    obtain ⟨c, tail, rfl, hc⟩ := number_head (Or.inl ⟨value, hinteger⟩)
    rw [List.cons_append] at hnone hscan ⊢
    rw [next_number hc, hnone, hscan]
  | @float spelling _ value hfloat hvalue hlongest =>
    obtain ⟨n, hscan, hn⟩ := scan?_iff.2 ⟨spelling, rfl, hfloat, hvalue, hlongest⟩
    obtain ⟨c, tail, rfl, hc⟩ := number_head (Or.inr hfloat)
    rw [List.cons_append] at hscan ⊢
    rw [next_number hc, hscan, ← hn]

/-- **The next token is the one that the grammar has there.** -/
theorem next_iff {token : Token} : Token.next s = .ok (token, rest) ↔ TokenAt token s rest := by
  constructor
  · intro h
    unfold Token.next at h
    split at h
    · split at h
      · rename_i hname
        obtain ⟨rfl, rfl⟩ := Prod.mk.inj (Except.ok.inj h)
        exact .opening (openingAt_iff.2 ⟨_, rfl, hname⟩)
      · cases h
    · obtain ⟨rfl, rfl⟩ := Prod.mk.inj (Except.ok.inj h)
      exact .closing _
    · split at h
      · rename_i hname
        obtain ⟨rfl, rfl⟩ := Prod.mk.inj (Except.ok.inj h)
        exact .leaf (scanSymbol?_iff.1 hname)
      · cases h
    · split at h
      · rename_i hleaf
        obtain ⟨rfl, rfl⟩ := Prod.mk.inj (Except.ok.inj h)
        exact .leaf (scanLeaf?_sound hleaf)
      · cases h
  · intro h
    cases h with
    | opening hopening =>
      obtain ⟨tail, rfl, hname⟩ := openingAt_iff.1 hopening
      rw [next_paren, hname]
    | closing => exact next_closing rest
    | leaf hleaf => exact next_of_leafAt hleaf

theorem eq_of_closing (h : TokenAt .closing s rest) : s = ')' :: rest := by
  cases h
  rfl

end RubySignature.Sexp
