/-
Where a text that breaks the notation goes wrong.

`malformed_furthest` says that the reported place is the furthest one that makes sense: what stands before it can be
completed to a text that follows the notation, and what comes after it does not begin with anything that the notation
allows there. What is allowed depends on where in the text the place is (`Stands`), and is said without the reader
(`Continues`).

The reader stops at the first token that it cannot take, so what stands before the place is a row of tokens, and the
completion is what these rows allow (`Stands.completable`). That nothing else could be taken there is read off the
scanner that failed (`not_starts_item` and its like).
-/
import RubySignature.Proofs.Sexp.Prefixes

namespace RubySignature.Sexp

variable {text s rest : List Char}

/-! ## Places -/

/-- The position is just after the text. Lines are counted by the line feeds in it and columns by the characters after the
last of them, both from one. -/
structure Position.IsAfter (position : Position) (text : List Char) : Prop where
  line : position.line = 1 + text.count '\n'
  column : ∃ earlier last, text = earlier ++ last ∧ (earlier = [] ∨ ∃ before, earlier = before ++ ['\n']) ∧
    '\n' ∉ last ∧ position.column = 1 + last.length

theorem Position.isAfter_after (text : List Char) : (Position.after text).IsAfter text := by
  have hsplit := List.takeWhile_append_dropWhile (p := (· != '\n')) (l := text.reverse)
  refine ⟨rfl, (text.reverse.dropWhile (· != '\n')).reverse, (text.reverse.takeWhile (· != '\n')).reverse, ?_, ?_, ?_, ?_⟩
  · rw [← List.reverse_append, hsplit, List.reverse_reverse]
  · cases hdrop : text.reverse.dropWhile (· != '\n') with
    | nil => exact Or.inl rfl
    | cons c before =>
      have hstops := stops_dropWhile (· != '\n') text.reverse
      rw [hdrop, stops_cons] at hstops
      obtain rfl : c = '\n' := by simpa using hstops
      exact Or.inr ⟨before.reverse, by simp⟩
  · intro hmem
    exact absurd (List.mem_takeWhile_imp (List.mem_reverse.1 hmem)) (by decide)
  · rw [List.length_reverse]
    rfl

/-- The rest of the text stands where the given thing is expected. -/
inductive Stands (text : List Char) : Expected → List Char → Prop where
  /-- before the outermost node -/
  | node {rest : List Char} (h : Layout text rest) : Stands text .node rest
  /-- after the parenthesis of the outermost node -/
  | kindName {s rest : List Char} (hparen : Layout text ('(' :: s)) (hlayout : Layout s rest) : Stands text .kindName rest
  /-- after the parenthesis of a node in another -/
  | nestedKindName {depth : Nat} {s start rest : List Char} (hinside : Inside text depth s)
    (hparen : Layout s ('(' :: start)) (hlayout : Layout start rest) : Stands text .kindName rest
  /-- inside a node after its name -/
  | item {depth : Nat} {s rest : List Char} (hinside : Inside text depth s) (hlayout : Layout s rest) :
    Stands text .item rest
  /-- directly after the colon of a symbol -/
  | symbolName {depth : Nat} {s rest : List Char} (hinside : Inside text depth s) (hcolon : Layout s (':' :: rest)) :
    Stands text .symbolName rest
  /-- after the outermost node -/
  | endOfText {s start rest : List Char} (hinside : Inside text 0 s) (hparen : Layout s (')' :: start))
    (hlayout : Layout start rest) : Stands text .endOfText rest

/-- The text begins with what is expected, apart from layout. -/
inductive Starts : Expected → List Char → Prop where
  | node (rest : List Char) : Starts .node ('(' :: rest)
  | kindName {c : Char} (hc : isKindStart c = true) (rest : List Char) : Starts .kindName (c :: rest)
  | opening (rest : List Char) : Starts .item ('(' :: rest)
  | closing (rest : List Char) : Starts .item (')' :: rest)
  | symbol (rest : List Char) : Starts .item (':' :: rest)
  | str {written text : List Char} (h : QuotedText written text) (rest : List Char) :
    Starts .item ('"' :: (written ++ '"' :: rest))
  | number {spelling : List Char} (h : NumberText spelling) (rest : List Char) : Starts .item (spelling ++ rest)
  | nil {rest : List Char} (h : Stops isKindChar rest) : Starts .item ('n' :: 'i' :: 'l' :: rest)
  | quotedName {written name : List Char} (h : QuotedText written name) (rest : List Char) :
    Starts .symbolName ('"' :: (written ++ '"' :: rest))
  | bareName {c : Char} (hc : isBareChar c = true) (rest : List Char) : Starts .symbolName (c :: rest)
  | endOfText : Starts .endOfText []

/-- The text begins with something that the notation allows where the given thing is expected. Layout may come first
everywhere but in a symbol. -/
inductive Continues : Expected → List Char → Prop where
  | starts {expected : Expected} {rest : List Char} (h : Starts expected rest) : Continues expected rest
  | blank {expected : Expected} {c : Char} (h : expected ≠ .symbolName) (hc : isSpace c = true) (rest : List Char) :
    Continues expected (c :: rest)
  | comment {expected : Expected} (h : expected ≠ .symbolName) (rest : List Char) : Continues expected ('#' :: rest)

/-! ## What stands before the place can be completed -/

/-- the text up to its rest is the beginning of a text that follows the notation -/
def Completable (text rest : List Char) : Prop :=
  ∃ front suffix, text = front ++ rest ∧ ∃ group, readGroup (front ++ suffix) = .ok group

theorem follows_line (rest s : List Char) : Follows rest ('\n' :: s) := ⟨Or.inl rfl, (stops_cons _ _ _).2 (by decide)⟩

theorem Replaceable.completable {R : List Char → List Char → Prop} {other : List Char} (h : Replaceable R text rest)
    (hother : Follows rest other) (hdone : ∀ {text}, R text other → ∃ group, readGroup text = .ok group) :
    Completable text rest := by
  obtain ⟨front, htext, hfront⟩ := h
  exact ⟨front, other, htext, hdone (hfront other hother).2⟩

/-- any name will do after an opening parenthesis -/
theorem tokenAt_args (hlayout : Layout s ('a' :: (['r', 'g', 's'] ++ ')' :: rest))) :
    TokenAt (.opening "args") ('(' :: s) (')' :: rest) :=
  .opening (.intro hlayout (by decide) (List.all_eq_true.1 rfl) ((stops_cons _ _ _).2 (by decide)))

/-- a parenthesis and some layout after it -/
theorem replaceable_paren {c : Char} {mid : List Char} (hc : goesOn c = false) (hparen : Layout s (c :: mid))
    (hlayout : Layout mid rest) : Replaceable (fun s rest => ∃ mid, Layout s (c :: mid) ∧ Layout mid rest) s rest := by
  have hcons : Replaceable (fun s rest => s = c :: rest) (c :: ([] ++ mid)) mid := .of_cons hc fun other _ => rfl
  have hopen : Replaceable (fun s rest => Layout s (c :: rest)) s mid :=
    hparen.replaceable.comp hcons fun hlayout hs => hs ▸ hlayout
  exact hopen.comp hlayout.replaceable fun hparen hlayout => ⟨_, hparen, hlayout⟩

namespace Inside

variable {depth : Nat}

/-- some layout inside a node -/
theorem replaceable_layout (hinside : Inside text depth s) (hlayout : Layout s rest) :
    Replaceable (fun text rest => ∃ s, Inside text depth s ∧ Layout s rest) text rest :=
  hinside.replaceable.comp hlayout.replaceable fun hinside hlayout => ⟨_, hinside, hlayout⟩

/-- some layout after a parenthesis inside a node -/
theorem replaceable_afterParen {c : Char} {mid : List Char} (hc : goesOn c = false) (hinside : Inside text depth s)
    (hparen : Layout s (c :: mid)) (hlayout : Layout mid rest) :
    Replaceable (fun text rest => ∃ s mid, Inside text depth s ∧ Layout s (c :: mid) ∧ Layout mid rest) text rest :=
  hinside.replaceable.comp (replaceable_paren hc hparen hlayout) fun hinside ⟨_, hlayouts⟩ => ⟨_, _, hinside, hlayouts⟩

end Inside

/-- **What stands before the place can be completed.** The rest may be replaced by whatever finishes the text: by what is
expected, on a line of its own, and by the parentheses that are missing after it. -/
theorem Stands.completable {expected : Expected} (h : Stands text expected rest) : Completable text rest := by
  have hline (s : List Char) : Layout ('\n' :: s) s := .blank rfl (.none s)
  cases h with
  | node h =>
    apply h.replaceable.completable (follows_line _ ['(', 'a', 'r', 'g', 's', ')'])
    intro text hlayout
    exact (Inside.outermost (hlayout.trans (hline _)) (tokenAt_args (.none _))).closed (.none _)
  | kindName hparen hlayout =>
    apply (replaceable_paren (by decide) hparen hlayout).completable (follows_line _ ['a', 'r', 'g', 's', ')'])
    rintro text ⟨mid, hparen, hlayout⟩
    exact (Inside.outermost hparen (tokenAt_args (hlayout.trans (hline _)))).closed (.none _)
  | @nestedKindName depth s start _ hinside hparen hlayout =>
    apply (hinside.replaceable_afterParen (by decide) hparen hlayout).completable
      (follows_line _ ('a' :: (['r', 'g', 's'] ++ List.replicate (depth + 2) ')')))
    rintro text ⟨s, mid, hinside, hparen, hlayout⟩
    exact (hinside.opening hparen (tokenAt_args (hlayout.trans (hline _)))).closed (.none _)
  | @item depth s _ hinside hlayout =>
    apply (hinside.replaceable_layout hlayout).completable (follows_line _ (List.replicate (depth + 1) ')'))
    rintro text ⟨s, hinside, hlayout⟩
    exact hinside.closed (hlayout.trans (hline _))
  | @symbolName depth s _ hinside hcolon =>
    -- no line feed may follow the colon, so the replacement begins with the colon itself
    let missing := '\n' :: List.replicate (depth + 1) ')'
    have hfollows : Follows (':' :: rest) (':' :: (['a'] ++ missing)) := ⟨Or.inr rfl, (stops_cons _ _ _).2 (by decide)⟩
    have hname : LeafAt (.symbol (String.ofList ['a'])) (':' :: (['a'] ++ missing)) missing :=
      .bareSymbol (by decide) (List.all_eq_true.1 rfl) ((stops_cons _ _ _).2 (by decide))
    obtain ⟨front, htext, hfront⟩ := hinside.replaceable_layout hcolon
    obtain ⟨-, s, hinside, hlayout⟩ := hfront _ hfollows
    have hgroup := (hinside.leaf hlayout (.leaf hname)).closed (hline _)
    exact ⟨front ++ [':'], ['a'] ++ missing, by simpa using htext, by simpa using hgroup⟩
  | endOfText hinside hparen hlayout =>
    apply (hinside.replaceable_afterParen (by decide) hparen hlayout).completable (follows_line _ [])
    rintro text ⟨s, mid, hinside, hparen, hlayout⟩
    exact hinside.completed hparen (hlayout.trans (hline _))

/-! ## Where the reader stops -/

/-- What is skipped ends at a character that is no layout. -/
theorem skip_visible {c : Char} (h : skip s = c :: rest) : isSpace c = false ∧ c ≠ '#' := by
  have hagain : skip (c :: rest) = c :: rest := by
    rw [← h]
    exact (skip_of_layout (layout_skip s)).symm
  constructor
  · by_contra hspace
    rw [skip_space (Bool.eq_true_of_not_eq_false hspace)] at hagain
    have hshort := length_skip_le rest
    simp [hagain] at hshort
  · rintro rfl
    rw [skip_hash] at hagain
    have hshort := length_skipComment_le rest
    simp [hagain] at hshort

/-- after all the layout has been skipped, the text can only go on with what is expected -/
theorem not_continues_skip {expected : Expected} (h : ¬ Starts expected (skip s)) : ¬ Continues expected (skip s) := by
  intro hcontinues
  generalize hskip : skip s = next at h hcontinues
  cases hcontinues with
  | starts hstarts => exact h hstarts
  | blank _ hc rest =>
    rw [(skip_visible hskip).1] at hc
    cases hc
  | comment _ rest => exact (skip_visible hskip).2 rfl

theorem not_starts_kindName (h : scanKind? s = none) : ¬ Starts .kindName s := by
  intro hstarts
  cases hstarts with
  | kindName hc rest =>
    rw [scanKind?, if_pos hc] at h
    cases h

theorem not_starts_symbolName (h : scanSymbol? s = none) : ¬ Starts .symbolName s := by
  intro hstarts
  cases hstarts with
  | quotedName hname rest =>
    rw [scanSymbol?_iff.2 (.quotedSymbol hname rest)] at h
    cases h
  | @bareName c hc rest =>
    have hname := scanSymbol?_bare (List.cons_ne_nil c (rest.takeWhile isBareChar))
      (List.forall_mem_cons.2 ⟨hc, fun _ => List.mem_takeWhile_imp⟩) (stops_dropWhile isBareChar rest)
    rw [List.cons_append, List.takeWhile_append_dropWhile, h] at hname
    cases hname

/-- where a number starts, one is read -/
theorem exists_next_number {spelling : List Char} (h : NumberText spelling) (rest : List Char) :
    ∃ result, Token.next (spelling ++ rest) = .ok result := by
  obtain ⟨c, tail, rfl, hc⟩ := number_head h
  rw [List.cons_append, next_number hc]
  rcases h with ⟨value, hinteger⟩ | hfloat
  · obtain ⟨t, left, hscan, -⟩ := scanInteger?_reaches hinteger rest
    rw [← List.cons_append, hscan]
    cases Numeral.scan? (c :: tail ++ rest) with
    | none => exact ⟨_, rfl⟩
    | some => exact ⟨_, rfl⟩
  · obtain ⟨n, left, hscan, -⟩ := Numeral.scan?_reaches hfloat rest
    rw [← List.cons_append, hscan]
    exact ⟨_, rfl⟩

theorem not_starts_item (h : Token.next s = .error ⟨.item, s⟩) : ¬ Starts .item s := by
  intro hstarts
  cases hstarts with
  | opening rest =>
    rw [next_paren] at h
    split at h <;> cases h
  | closing rest => cases h
  | symbol rest =>
    rw [next_colon] at h
    split at h <;> cases h
  | str htext rest =>
    rw [next_of_leafAt (.str htext rest)] at h
    cases h
  | number hnumber rest =>
    obtain ⟨result, hnext⟩ := exists_next_number hnumber rest
    rw [hnext] at h
    cases h
  | nil hrest =>
    rw [next_of_leafAt (.nil hrest)] at h
    cases h

/-- the fault is at a place of the text, and what comes there is not what is expected -/
def Fault.Marks (fault : Fault) (text : List Char) : Prop :=
  Stands text fault.expected fault.rest ∧ ¬ Continues fault.expected fault.rest

/-- **Step.** The token that cannot be read inside a node marks the fault. -/
theorem Inside.marks {depth : Nat} {fault : Fault} (hinside : Inside text depth s)
    (h : Token.next (skip s) = .error fault) : fault.Marks text := by
  have hlayout := layout_skip s
  have hnext := h
  unfold Token.next at h
  split at h
  · rename_i tail hskip
    split at h
    · cases h
    · rename_i hnone
      obtain rfl := Except.error.inj h
      rw [hskip] at hlayout
      exact ⟨.nestedKindName hinside hlayout (layout_skip tail), not_continues_skip (not_starts_kindName hnone)⟩
  · cases h
  · rename_i tail hskip
    split at h
    · cases h
    · rename_i hnone
      obtain rfl := Except.error.inj h
      rw [hskip] at hlayout
      refine ⟨.symbolName hinside hlayout, ?_⟩
      intro hcontinues
      cases hcontinues with
      | starts hstarts => exact not_starts_symbolName hnone hstarts
      | blank hname => exact hname rfl
      | comment hname => exact hname rfl
  · split at h
    · cases h
    · obtain rfl := Except.error.inj h
      exact ⟨.item hinside hlayout, not_continues_skip (not_starts_item hnext)⟩

/-- **Run.** Reading the items of open nodes goes from token to token, until one cannot be read or closes the outermost
node. -/
theorem Inside.marks_or_closes (top : Frame) (outer : List Frame) (hinside : Inside text outer.length s) :
    match readItems top outer s with
    | .error fault => fault.Marks text
    | .ok (_, rest) => ∃ next, Inside text 0 next ∧ Layout next (')' :: rest) := by
  fun_induction readItems top outer s with
  | case1 top outer s fault hnext => exact hinside.marks hnext
  | case2 top outer s value next hnext ih => exact ih (hinside.leaf (layout_skip s) (next_iff.1 hnext))
  | case3 top outer s name next hnext ih => exact ih (hinside.opening (layout_skip s) (next_iff.1 hnext))
  | case4 top s rest hnext =>
    have hlayout := layout_skip s
    rw [eq_of_closing (next_iff.1 hnext)] at hlayout
    exact ⟨s, hinside, hlayout⟩
  | case5 top s next hnext frame outer ih => exact ih (hinside.closing (layout_skip s) (next_iff.1 hnext))

/-- **The reader stops where the text stops making sense.** -/
theorem marks_of_readGroup {fault : Fault} (h : readGroup text = .error fault) : fault.Marks text := by
  have hlayout := layout_skip text
  unfold readGroup at h
  split at h
  · rename_i tail hskip
    rw [hskip] at hlayout
    split at h
    · rename_i hnone
      obtain rfl := Except.error.inj h
      exact ⟨.kindName hlayout (layout_skip tail), not_continues_skip (not_starts_kindName hnone)⟩
    · rename_i name inner hname
      have hinside : Inside text 0 inner := .outermost hlayout (.opening (openingAt_iff.2 ⟨tail, rfl, hname⟩))
      have hitems := hinside.marks_or_closes ⟨name, []⟩ []
      split at h
      · rename_i found hfault
        obtain rfl := Except.error.inj h
        rwa [hfault] at hitems
      · rename_i group rest hread
        split at h
        · cases h
        · rename_i hleft
          obtain rfl := Except.error.inj h
          rw [hread] at hitems
          obtain ⟨next, hinside, hparen⟩ := hitems
          refine ⟨.endOfText hinside hparen (layout_skip rest), not_continues_skip ?_⟩
          intro hstarts
          generalize skip rest = left at hleft hstarts
          cases hstarts with
          | endOfText => exact hleft rfl
  · rename_i hskip
    obtain rfl := Except.error.inj h
    refine ⟨.node hlayout, not_continues_skip ?_⟩
    intro hstarts
    generalize skip text = start at hskip hstarts
    cases hstarts with
    | node rest => exact hskip rest rfl

/-! ## Faults of the notation and other errors -/

section

variable {position : Position} {expected : Expected}

theorem kindNamed_ne_malformed (name : String) : kindNamed name ≠ .error (.malformed position expected) := by
  intro h
  unfold kindNamed at h
  split at h <;> cases h

mutual

/-- building a tree finds no fault with the notation -/
theorem toChild_ne_malformed : (item : Form) → item.toChild ≠ .error (.malformed position expected)
  | .leaf value => by
    intro h
    unfold Form.toChild Leaf.toChild at h
    split at h
    · cases h
    · split at h <;> cases h
    · cases h
    · cases h
    · cases h
  | .node name items => by
    rw [Form.toChild]
    apply bind_ne_error (kindNamed_ne_malformed name)
    intro kind
    exact bind_ne_error (toChildren_ne_malformed items) nofun

theorem toChildren_ne_malformed : (items : List Form) → Form.toChildren items ≠ .error (.malformed position expected)
  | [] => by
    intro h
    cases h
  | item :: later => by
    rw [Form.toChildren]
    apply bind_ne_error (toChild_ne_malformed item)
    intro child
    exact bind_ne_error (toChildren_ne_malformed later) nofun

end

theorem toNode_ne_malformed (group : Group) : group.toNode ≠ .error (.malformed position expected) := by
  apply bind_ne_error (kindNamed_ne_malformed group.name)
  intro kind
  exact bind_ne_error (toChildren_ne_malformed group.items) nofun

/-- a text is malformed exactly when it cannot be taken apart -/
theorem read_malformed_iff {text : String} : read text = .error (.malformed position expected) ↔
    ∃ fault, readGroup text.toList = .error fault ∧ fault.locate text.toList = .malformed position expected := by
  unfold read readChars
  cases readGroup text.toList with
  | error fault =>
    constructor
    · intro h
      exact ⟨fault, rfl, Except.error.inj h⟩
    · rintro ⟨found, hfound, hplace⟩
      obtain rfl := Except.error.inj hfound
      exact congrArg Except.error hplace
  | ok group =>
    constructor
    · intro h
      exact absurd h (toNode_ne_malformed group)
    · rintro ⟨fault, h, -⟩
      cases h

end

/-! ## The reported place -/

/-- **The reported place is the furthest that makes sense.** The text up to it can go on in some way that follows the
notation, and does not go on with anything that is allowed there. -/
theorem malformed_furthest {text : String} {position : Position} {expected : Expected}
    (h : read text = .error (.malformed position expected)) :
    ∃ good rest, text.toList = good ++ rest ∧ position.IsAfter good ∧
      (∃ suffix, ∀ position expected, read (String.ofList (good ++ suffix)) ≠ .error (.malformed position expected)) ∧
      Stands text.toList expected rest ∧ ¬ Continues expected rest := by
  obtain ⟨fault, hfault, hplace⟩ := read_malformed_iff.1 h
  obtain ⟨hstands, hstuck⟩ := marks_of_readGroup hfault
  obtain ⟨good, suffix, htext, group, hgroup⟩ := hstands.completable
  have hgood : text.toList.take (text.toList.length - fault.rest.length) = good := by
    rw [htext, List.length_append, Nat.add_sub_cancel, List.take_left]
  rw [Fault.locate, hgood] at hplace
  obtain ⟨rfl, rfl⟩ := ReadError.malformed.inj hplace
  refine ⟨good, fault.rest, htext, Position.isAfter_after good, ⟨suffix, ?_⟩, hstands, hstuck⟩
  intro position expected hmalformed
  obtain ⟨other, hother, -⟩ := read_malformed_iff.1 hmalformed
  rw [String.toList_ofList, hgroup] at hother
  cases hother

/-- The point after an integer is no item, and the integer before it would be one without it. -/
theorem malformed_furthest_point :
    read "(args\n 1.)" = .error (.malformed ⟨2, 3⟩ .item) ∧
    ∃ good rest, "(args\n 1.)".toList = good ++ rest ∧ Position.IsAfter ⟨2, 3⟩ good ∧
      (∃ suffix, ∀ position expected, read (String.ofList (good ++ suffix)) ≠ .error (.malformed position expected)) ∧
      Stands "(args\n 1.)".toList .item rest ∧ ¬ Continues .item rest := by
  have hone : Token.next (skip ['\n', ' ', '1', '.', ')']) = .ok (.leaf (.integer "1"), ['.', ')']) := rfl
  have hpoint : Token.next (skip ['.', ')']) = .error ⟨.item, ['.', ')']⟩ := rfl
  have hitems : readItems ⟨"args", []⟩ [] ['\n', ' ', '1', '.', ')'] = .error ⟨.item, ['.', ')']⟩ :=
    (readItems_leaf hone).trans (readItems_fault hpoint)
  have hread : read "(args\n 1.)" = .error (.malformed ⟨2, 3⟩ .item) := by
    apply read_malformed_iff.2
    refine ⟨⟨.item, ['.', ')']⟩, ?_, rfl⟩
    exact (readGroup_opening (.none _) (openingAt_iff.2 ⟨_, rfl, rfl⟩)).trans (congrArg (·.bind finishGroup) hitems)
  exact ⟨hread, malformed_furthest hread⟩

end RubySignature.Sexp
