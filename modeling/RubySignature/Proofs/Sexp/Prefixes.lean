/-
What has been read of a text stays read when the rest of the text is replaced.

A name, a bare symbol, a number and a nil end where the text goes on with another sort of character. So the text after
them may be replaced by one that begins with a line feed, or by one that begins as it did, unless that is how a number
goes on (`Follows`). Layout and tokens allow this (`Layout.replaceable`, `TokenAt.replaceable`), and so does any row of
them, since what stands before may be followed by them in the same way (`Replaceable.comp`).

`Inside` are the rows of tokens that lead into a node whose closing parenthesis is still to come. What may be put in place
of the rest are above all the missing parentheses, which make the text a whole one (`Inside.completed`).
-/
import RubySignature.Proofs.Sexp.Parsing

namespace RubySignature.Sexp

variable {s mid rest other : List Char}

/-! ## Replacing the rest of a text -/

/-- the other text begins with a line feed, or as the rest does -/
def Alike (rest other : List Char) : Prop := other.head? = some '\n' ∨ other.head? = rest.head?

/-- whether a number may go on with the character, apart from digits -/
def goesOn (c : Char) : Bool := c == '.' || c == 'e' || c == 'E'

/-- the other text may stand in place of the rest -/
def Follows (rest other : List Char) : Prop := Alike rest other ∧ Stops goesOn other

theorem Alike.stops {p : Char → Bool} (h : Alike rest other) (hline : p '\n' = false) (hrest : Stops p rest) :
    Stops p other := by
  intro c hc
  rcases h with h | h
  · rw [h] at hc
    exact Option.mem_some.1 hc ▸ hline
  · rw [h] at hc
    exact hrest c hc

/-- The text is related to its rest, and the front of it to whatever may stand in place of the rest. What stands before
the text may be followed by the new one. -/
def Replaceable (R : List Char → List Char → Prop) (s rest : List Char) : Prop :=
  ∃ front, s = front ++ rest ∧ ∀ other, Follows rest other → Follows s (front ++ other) ∧ R (front ++ other) other

namespace Replaceable

variable {R Q T : List Char → List Char → Prop}

/-- two rows of tokens, one after the other -/
theorem comp (h : Replaceable R s mid) (hlater : Replaceable Q mid rest)
    (hboth : ∀ {s mid rest}, R s mid → Q mid rest → T s rest) : Replaceable T s rest := by
  obtain ⟨front, rfl, hfront⟩ := h
  obtain ⟨later, rfl, hlater⟩ := hlater
  refine ⟨front ++ later, (List.append_assoc ..).symm, ?_⟩
  intro other hother
  obtain ⟨hfollows, hq⟩ := hlater other hother
  obtain ⟨hfollows, hr⟩ := hfront _ hfollows
  rw [List.append_assoc]
  exact ⟨hfollows, hboth hr hq⟩

theorem imp (h : Replaceable R s rest) (hinto : ∀ {s rest}, R s rest → Q s rest) : Replaceable Q s rest := by
  obtain ⟨front, hs, hfront⟩ := h
  exact ⟨front, hs, fun other hother => ⟨(hfront other hother).1, hinto (hfront other hother).2⟩⟩

/-- a front that is not empty begins the new text as it began the old one -/
theorem of_cons {c : Char} {front : List Char} (hc : goesOn c = false)
    (h : ∀ other, Follows rest other → R (c :: (front ++ other)) other) : Replaceable R (c :: (front ++ rest)) rest := by
  refine ⟨c :: front, rfl, ?_⟩
  intro other hother
  exact ⟨⟨Or.inr rfl, (stops_cons _ _ _).2 hc⟩, h other hother⟩

end Replaceable

/-! ## Layout -/

theorem Layout.replaced (h : Layout s rest) : ∃ front, s = front ++ rest ∧ ∀ other, Alike rest other →
    Alike s (front ++ other) ∧ (Stops goesOn other → Stops goesOn (front ++ other)) ∧ Layout (front ++ other) other := by
  induction h with
  | none rest => exact ⟨[], rfl, fun other hother => ⟨hother, id, .none other⟩⟩
  | @blank c s rest hc hs ih =>
    obtain ⟨front, rfl, hfront⟩ := ih
    refine ⟨c :: front, rfl, fun other hother => ⟨Or.inr rfl, fun _ => ?_, .blank hc (hfront other hother).2.2⟩⟩
    rw [List.cons_append, stops_cons]
    rcases eq_of_isSpace hc with rfl | rfl | rfl | rfl <;> decide
  | @comment body s rest hbody hend hs ih =>
    obtain ⟨front, rfl, hfront⟩ := ih
    refine ⟨'#' :: (body ++ front), by simp, fun other hother => ?_⟩
    obtain ⟨hfollows, -, hlayout⟩ := hfront other hother
    have hline : ∀ c ∈ (front ++ other).head?, isLineEnd c = true := by
      -- the comment still ends at a line end
      rcases hfollows with hline | hsame
      · simp [hline, isLineEnd]
      · rwa [hsame]
    rw [List.cons_append, List.append_assoc]
    exact ⟨Or.inr rfl, fun _ => (stops_cons _ _ _).2 (by decide), .comment hbody hline hlayout⟩

theorem Layout.replaceable (h : Layout s rest) : Replaceable Layout s rest := by
  obtain ⟨front, hs, hfront⟩ := h.replaced
  refine ⟨front, hs, fun other hother => ?_⟩
  obtain ⟨halike, hstops, hlayout⟩ := hfront other hother.1
  exact ⟨⟨halike, hstops hother.2⟩, hlayout⟩

theorem Layout.trans (h : Layout s mid) (hlater : Layout mid rest) : Layout s rest := by
  induction h with
  | none => exact hlater
  | blank hc _ ih => exact .blank hc (ih hlater)
  | comment hbody hend _ ih => exact .comment hbody hend (ih hlater)

/-! ## Tokens -/

theorem OpeningAt.replaceable {name : String} (h : OpeningAt name s rest) : Replaceable (OpeningAt name) s rest := by
  cases h with
  | @intro c word s _ hlayout hstart hword hrest =>
    obtain ⟨front, rfl, hfront⟩ := hlayout.replaced
    have hsplit : front ++ c :: (word ++ rest) = (front ++ c :: word) ++ rest := by simp
    rw [hsplit]
    refine .of_cons (by decide) fun other hother => ?_
    obtain ⟨-, -, hnew⟩ := hfront (c :: (word ++ other)) (Or.inr rfl)
    rw [List.append_assoc, List.cons_append]
    exact .intro hnew hstart hword (hother.1.stops (by decide) hrest)

/-- a number is still the longest one when the text after it is replaced -/
theorem Longest.replace {spelling : List Char} (h : Longest spelling rest) (hnumber : NumberText spelling)
    (hother : Follows rest other) : Longest spelling other := by
  apply longest_of_stops hnumber
  intro c hc
  have hdigit : c.isDigit = false := hother.1.stops (by decide) (h.stops_isDigit hnumber) c hc
  have hmark := hother.2 c hc
  simp only [goesOn, Bool.or_eq_false_iff] at hmark
  simp [Numeral.continues, hdigit, hmark]

theorem LeafAt.replaceable {value : Leaf} (h : LeafAt value s rest) : Replaceable (LeafAt value) s rest := by
  have hnumber {spelling rest : List Char} {value : Leaf} (h : NumberText spelling) (hlongest : Longest spelling rest)
      (hleaf : ∀ other, Longest spelling other → LeafAt value (spelling ++ other) other) :
      Replaceable (LeafAt value) (spelling ++ rest) rest := by
    obtain ⟨c, tail, rfl, hc⟩ := number_head h
    refine .of_cons ?_ fun other hother => hleaf other (hlongest.replace h hother)
    rcases hc with rfl | hc
    · decide
    · have hne {d : Char} (hd : d.isDigit = false) : c ≠ d := ne_of_sort hc hd
      simp [goesOn, hne]
  cases h with
  | @quotedSymbol written name h _ =>
    have hsplit (rest : List Char) : '"' :: (written ++ '"' :: rest) = ('"' :: (written ++ ['"'])) ++ rest := by simp
    rw [hsplit]
    refine .of_cons (by decide) fun other _ => ?_
    rw [← hsplit]
    exact .quotedSymbol h other
  | bareSymbol hne hname hrest =>
    exact .of_cons (by decide) fun other hother => .bareSymbol hne hname (hother.1.stops (by decide) hrest)
  | integer h hlongest => exact hnumber (Or.inl ⟨_, h⟩) hlongest fun other hother => .integer h hother
  | float h hvalue hlongest => exact hnumber (Or.inr h) hlongest fun other hother => .float h hvalue hother
  | @str written text h _ =>
    have hsplit (rest : List Char) : written ++ '"' :: rest = (written ++ ['"']) ++ rest := by simp
    rw [hsplit]
    refine .of_cons (by decide) fun other _ => ?_
    rw [← hsplit]
    exact .str h other
  | nil hrest =>
    rw [show 'n' :: 'i' :: 'l' :: rest = 'n' :: (['i', 'l'] ++ rest) from rfl]
    exact .of_cons (by decide) fun other hother => .nil (hother.1.stops (by decide) hrest)

theorem TokenAt.replaceable {token : Token} (h : TokenAt token s rest) : Replaceable (TokenAt token) s rest := by
  cases h with
  | opening h => exact h.replaceable.imp .opening
  | closing =>
    rw [show ')' :: rest = ')' :: ([] ++ rest) from rfl]
    exact .of_cons (by decide) fun other _ => .closing other
  | leaf h => exact h.replaceable.imp .leaf

/-! ## Open nodes -/

/-- The text has been read up to `rest`, which is in a node whose closing parenthesis is still to come, after its name and
perhaps some items. The depth is how many more nodes are open around that one. -/
inductive Inside (text : List Char) : Nat → List Char → Prop where
  | outermost {name : String} {start rest : List Char} (hlayout : Layout text start)
    (h : TokenAt (.opening name) start rest) : Inside text 0 rest
  | leaf {value : Leaf} {depth : Nat} {s start rest : List Char} (hinside : Inside text depth s) (hlayout : Layout s start)
    (h : TokenAt (.leaf value) start rest) : Inside text depth rest
  | opening {name : String} {depth : Nat} {s start rest : List Char} (hinside : Inside text depth s)
    (hlayout : Layout s start) (h : TokenAt (.opening name) start rest) : Inside text (depth + 1) rest
  | closing {depth : Nat} {s start rest : List Char} (hinside : Inside text (depth + 1) s) (hlayout : Layout s start)
    (h : TokenAt .closing start rest) : Inside text depth rest

/-- some layout and a token after it -/
def After (token : Token) (s rest : List Char) : Prop := ∃ start, Layout s start ∧ TokenAt token start rest

theorem replaceable_after {token : Token} {start : List Char} (hlayout : Layout s start) (h : TokenAt token start rest) :
    Replaceable (After token) s rest :=
  hlayout.replaceable.comp h.replaceable fun hlayout htoken => ⟨_, hlayout, htoken⟩

/-- **Run.** A text that has been read into a node may go on in any other way from there. -/
theorem Inside.replaceable {text : List Char} {depth : Nat} (h : Inside text depth rest) :
    Replaceable (Inside · depth ·) text rest := by
  induction h with
  | outermost hlayout h => exact (replaceable_after hlayout h).imp fun ⟨_, hlayout, h⟩ => .outermost hlayout h
  | leaf _ hlayout h ih =>
    exact ih.comp (replaceable_after hlayout h) fun hinside ⟨_, hlayout, h⟩ => .leaf hinside hlayout h
  | opening _ hlayout h ih =>
    exact ih.comp (replaceable_after hlayout h) fun hinside ⟨_, hlayout, h⟩ => .opening hinside hlayout h
  | closing _ hlayout h ih =>
    exact ih.comp (replaceable_after hlayout h) fun hinside ⟨_, hlayout, h⟩ => .closing hinside hlayout h

/-! ## Completing a text -/

/-- what is read after the outermost node -/
def finishGroup (found : Group × List Char) : Except Fault Group :=
  if (skip found.2).isEmpty then .ok found.1 else .error ⟨.endOfText, skip found.2⟩

/-- after some layout and a node's opening, the items of the node are read -/
theorem readGroup_opening {name : String} {text start : List Char} (hlayout : Layout text start)
    (h : OpeningAt name start rest) : readGroup text = (readItems ⟨name, []⟩ [] rest).bind finishGroup := by
  obtain ⟨tail, rfl, hname⟩ := openingAt_iff.1 h
  have hparen : skip text = '(' :: tail := by rw [skip_of_layout hlayout, skip_cons (by decide) (by decide)]
  unfold readGroup
  simp only [hparen, hname]
  cases readItems ⟨name, []⟩ [] rest <;> rfl

/-- A text that has been read into a node is read by reading on from there. -/
theorem Inside.exists_frames {text : List Char} {depth : Nat} (h : Inside text depth rest) :
    ∃ top outer, outer.length = depth ∧ readGroup text = (readItems top outer rest).bind finishGroup := by
  induction h with
  | outermost hlayout h =>
    cases h with
    | opening h => exact ⟨_, [], rfl, readGroup_opening hlayout h⟩
  | leaf _ hlayout h ih =>
    obtain ⟨top, outer, hdepth, hread⟩ := ih
    exact ⟨_, outer, hdepth, hread.trans (congrArg (·.bind finishGroup) (readItems_leaf (next_skip hlayout h)))⟩
  | opening _ hlayout h ih =>
    obtain ⟨top, outer, hdepth, hread⟩ := ih
    exact ⟨_, top :: outer, congrArg (· + 1) hdepth,
      hread.trans (congrArg (·.bind finishGroup) (readItems_opening (next_skip hlayout h)))⟩
  | closing _ hlayout h ih =>
    obtain ⟨top, outer, hdepth, hread⟩ := ih
    obtain ⟨frame, outer, rfl⟩ := List.exists_cons_of_length_eq_add_one hdepth
    exact ⟨_, outer, Nat.succ.inj hdepth,
      hread.trans (congrArg (·.bind finishGroup) (readItems_closing (next_skip hlayout h)))⟩

/-- closing parentheses finish the open nodes -/
theorem readItems_parens (top : Frame) (outer : List Frame)
    (hlayout : Layout s (List.replicate (outer.length + 1) ')' ++ rest)) :
    ∃ group, readItems top outer s = .ok (group, rest) := by
  have hnext := next_skip hlayout (.closing (List.replicate outer.length ')' ++ rest))
  induction outer generalizing top s with
  | nil => exact ⟨top.close, readItems_last hnext⟩
  | cons frame outer ih =>
    obtain ⟨group, hread⟩ := ih (frame.push top.close.toForm) (.none _) (next_skip (.none _) (.closing _))
    exact ⟨group, (readItems_closing hnext).trans hread⟩

/-- **A text that has been read into a node is a whole one when the missing parentheses follow**, with nothing but layout
around them. -/
theorem Inside.completed {text : List Char} {depth : Nat} (h : Inside text depth s)
    (hlayout : Layout s (List.replicate (depth + 1) ')' ++ rest)) (hend : Layout rest []) :
    ∃ group, readGroup text = .ok group := by
  obtain ⟨top, outer, rfl, hread⟩ := h.exists_frames
  obtain ⟨group, hitems⟩ := readItems_parens top outer hlayout
  refine ⟨group, ?_⟩
  rw [hread, hitems]
  exact if_pos (layout_nil_iff.1 hend)

theorem Inside.closed {text : List Char} {depth : Nat} (h : Inside text depth s)
    (hlayout : Layout s (List.replicate (depth + 1) ')')) : ∃ group, readGroup text = .ok group := by
  refine h.completed ?_ (.none [])
  rwa [List.append_nil]

end RubySignature.Sexp
