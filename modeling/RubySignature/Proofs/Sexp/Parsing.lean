/-
The reader of s-expressions is sound and complete for the grammar.

`read_iff_spells` is the result: a text is read as a tree exactly when it spells that tree. With the tokens settled, this
is about the nodes that are still open while a text is read. What is left of a text finishes them if it holds the items of
the innermost one up to its closing parenthesis, and then finishes the others with that node as one more item
(`Finishes`). Reading a text that does so succeeds, by induction on the grammar (`readItems_itemsAt`), and a text that is
read does so, by induction on the run of the reader (`finishes_of_readItems`).
-/
import RubySignature.Proofs.Outcomes
import RubySignature.Proofs.Sexp.RoundTrip
import RubySignature.Proofs.Sexp.Scanning

namespace RubySignature.Sexp

variable {s rest : List Char}

/-! ## Items -/

variable {top : Frame} {outer : List Frame} {group : Group}

/-- the token that comes after some layout is the next one -/
theorem next_skip {token : Token} {start : List Char} (hlayout : Layout s start) (h : TokenAt token start rest) :
    Token.next (skip s) = .ok (token, rest) := by
  have hnext := next_iff.2 h
  rw [skip_of_layout hlayout, skip_of_next hnext]
  exact hnext

/-- what is read after the end of the innermost node -/
def readOuter (closed : Group) : List Frame → List Char → Except Fault (Group × List Char)
  | [], rest => .ok (closed, rest)
  | frame :: outer, rest => readItems (frame.push closed.toForm) outer rest

theorem readItems_closing_outer (h : Token.next (skip s) = .ok (.closing, rest)) :
    readItems top outer s = readOuter top.close outer rest := by
  cases outer with
  | nil => exact readItems_last h
  | cons frame outer => exact readItems_closing h

mutual

/-- an item of the grammar is read as this item -/
theorem readItems_item (top : Frame) (outer : List Frame) {item : Form} {s start rest : List Char}
    (hlayout : Layout s start) : ItemAt item start rest → readItems top outer s = readItems (top.push item) outer rest
  | .leaf hleaf => readItems_leaf (next_skip hlayout (.leaf hleaf))
  | .node hname hitems => by
    rw [readItems_opening (next_skip hlayout (.opening hname)), readItems_itemsAt _ _ hitems, close_pushAll]
    rfl

/-- the items of a node are read, and then the text after it -/
theorem readItems_itemsAt (top : Frame) (outer : List Frame) {items : List Form} {s rest : List Char} :
    ItemsAt items s rest → readItems top outer s = readOuter (pushAll top items).close outer rest
  | .closing hlayout => readItems_closing_outer (next_skip hlayout (.closing rest))
  | .item hlayout hitem hlater => by
    rw [readItems_item top outer hlayout hitem, readItems_itemsAt _ _ hlater]
    rfl

end

/-- The text finishes the open nodes: they become the group, and `rest` is left. -/
def Finishes : Frame → List Frame → List Char → Group → List Char → Prop
  | top, [], s, group, rest => ∃ items, ItemsAt items s rest ∧ (pushAll top items).close = group
  | top, frame :: outer, s, group, rest => ∃ items next, ItemsAt items s next ∧
    Finishes (frame.push (pushAll top items).close.toForm) outer next group rest

theorem Finishes.item {item : Form} {start next : List Char} (hlayout : Layout s start) (hitem : ItemAt item start next)
    (h : Finishes (top.push item) outer next group rest) : Finishes top outer s group rest := by
  cases outer with
  | nil =>
    obtain ⟨items, hitems, hclose⟩ := h
    exact ⟨item :: items, .item hlayout hitem hitems, hclose⟩
  | cons frame outer =>
    obtain ⟨items, after, hitems, hclose⟩ := h
    exact ⟨item :: items, after, .item hlayout hitem hitems, hclose⟩

/-- **What is read finishes the open nodes** as the grammar has it. -/
theorem finishes_of_readItems (h : readItems top outer s = .ok (group, rest)) : Finishes top outer s group rest := by
  fun_induction readItems top outer s with
  | case1 => cases h
  | case2 top outer s value next hnext ih =>
    cases next_iff.1 hnext with
    | leaf hleaf => exact .item (layout_skip s) (.leaf hleaf) (ih h)
  | case3 top outer s name next hnext ih =>
    cases next_iff.1 hnext with
    | opening hname =>
      -- the node that opens here is finished first
      obtain ⟨items, after, hitems, hfinishes⟩ := ih h
      rw [close_pushAll] at hfinishes
      exact .item (layout_skip s) (.node hname hitems) hfinishes
  | case4 top s next hnext =>
    obtain ⟨rfl, rfl⟩ := Prod.mk.inj (Except.ok.inj h)
    have hlayout := layout_skip s
    rw [eq_of_closing (next_iff.1 hnext)] at hlayout
    exact ⟨[], .closing hlayout, rfl⟩
  | case5 top s next hnext frame outer ih =>
    have hlayout := layout_skip s
    rw [eq_of_closing (next_iff.1 hnext)] at hlayout
    exact ⟨[], next, .closing hlayout, ih h⟩

/-! ## Whole texts -/

theorem layout_nil_iff : Layout s [] ↔ (skip s).isEmpty = true := by
  rw [List.isEmpty_iff]
  constructor
  · intro h
    rw [skip_of_layout h, skip]
  · intro h
    exact h ▸ layout_skip s

/-- **A text is taken apart as the grammar has it.** -/
theorem readGroup_iff {text : List Char} : readGroup text = .ok group ↔ GroupText group text := by
  constructor
  · intro h
    have hlayout := layout_skip text
    unfold readGroup at h
    split at h
    · rename_i tail hparen
      split at h
      · cases h
      · rename_i name inner hname
        split at h
        · cases h
        · rename_i found left hitems
          split at h
          · rename_i hend
            obtain rfl := Except.ok.inj h
            obtain ⟨items, hall, rfl⟩ := finishes_of_readItems hitems
            rw [close_pushAll]
            rw [hparen] at hlayout
            exact ⟨_, left, hlayout, .node (openingAt_iff.2 ⟨tail, rfl, hname⟩) hall, layout_nil_iff.2 hend⟩
          · cases h
    · cases h
  · rintro ⟨start, rest, hlayout, hnode, hend⟩
    cases hnode with
    | @node _ _ _ inner _ hname hitems =>
      obtain ⟨tail, rfl, hscan⟩ := openingAt_iff.1 hname
      have hparen : skip text = '(' :: tail := by rw [skip_of_layout hlayout, skip_cons (by decide) (by decide)]
      have hread : readItems ⟨group.name, []⟩ [] inner = .ok (group, rest) := by
        rw [readItems_itemsAt _ _ hitems, close_pushAll]
        rfl
      unfold readGroup
      simp only [hparen, hscan, hread, layout_nil_iff.1 hend, if_true]

/-! ## Trees -/

/-- a number is made into the word that holds it, if there is one -/
theorem wordOf_iff {i : Int} {value : Int64} : wordOf i = .ok value ↔ value.toInt = i := by
  constructor
  · intro h
    have hmax : Int64.maxValue.toInt = 9223372036854775807 := rfl
    have hmin : Int64.minValue.toInt = -9223372036854775808 := rfl
    unfold wordOf at h
    split_ifs at h with hhigh hlow
    obtain rfl := Except.ok.inj h
    exact Int64.toInt_ofInt_of_le (by omega) (by omega)
  · rintro rfl
    exact wordOf_toInt value

theorem wordOfDecimal_minus (negative : Bool) {digits : List Char} (h : Digits digits) :
    wordOfDecimal (minus negative ++ digits) =
      wordOf (if negative then -(digitsValue digits : Int) else digitsValue digits) := by
  have hall : (digits.isEmpty || !digits.all Char.isDigit) = false := by
    rw [List.all_eq_true.2 h.2]
    simpa using h.1
  cases negative with
  | true =>
    unfold wordOfDecimal
    simp only [minus, if_true, List.cons_append, List.nil_append, hall]
    rfl
  | false =>
    obtain ⟨c, later, rfl⟩ := List.exists_cons_of_ne_nil h.1
    have hc : c ≠ '-' := ne_minus_of_isDigit (h.2 c List.mem_cons_self)
    simp only [minus, Bool.false_eq_true, if_false, List.nil_append]
    unfold wordOfDecimal
    split
    · rename_i heq
      exact absurd (List.cons.inj heq).1 hc
    · simp only [hall]
      rfl

theorem digits_of_not {digits : List Char} (h : ¬ (digits.isEmpty || !digits.all Char.isDigit) = true) :
    Digits digits := by
  simp only [Bool.or_eq_true, not_or, Bool.not_eq_true', Bool.not_eq_false, List.all_eq_true] at h
  exact ⟨by simpa using h.1, h.2⟩

/-- A spelling is read as a word exactly when it is that of an integer of its range. -/
theorem wordOfDecimal_iff {s : List Char} {value : Int64} :
    wordOfDecimal s = .ok value ↔ IntegerText s value.toInt := by
  constructor
  · intro h
    unfold wordOfDecimal at h
    split at h
    · split at h
      · cases h
      · rename_i hdigits
        rw [wordOf_iff.1 h]
        exact .intro true (digits_of_not hdigits)
    · split at h
      · cases h
      · rename_i hdigits
        rw [wordOf_iff.1 h]
        exact .intro false (digits_of_not hdigits)
  · intro h
    generalize hvalue : value.toInt = i at h
    obtain ⟨negative, hdigits⟩ := h
    rw [wordOfDecimal_minus negative hdigits]
    exact wordOf_iff.2 hvalue

theorem toChild_leaf_iff {leaf : Leaf} {child : Child} : leaf.toChild = .ok child ↔ leaf.Denotes child := by
  constructor
  · intro h
    unfold Leaf.toChild at h
    split at h
    · obtain rfl := Except.ok.inj h
      exact .symbol _
    · rename_i spelling
      split at h
      · rename_i value hvalue
        obtain rfl := Except.ok.inj h
        have hinteger := Leaf.Denotes.integer (wordOfDecimal_iff.1 hvalue)
        rwa [String.ofList_toList] at hinteger
      · cases h
    · obtain rfl := Except.ok.inj h
      exact .float _
    · obtain rfl := Except.ok.inj h
      exact .str _
    · obtain rfl := Except.ok.inj h
      exact .nil
  · intro h
    cases h with
    | integer hinteger => rw [Leaf.toChild, String.toList_ofList, wordOfDecimal_iff.2 hinteger]
    | _ => rfl

theorem kindNamed_iff {name : String} {kind : Kind} : kindNamed name = .ok kind ↔ name = kind.name := by
  constructor
  · intro h
    unfold kindNamed at h
    split at h
    · rename_i found hfound
      obtain rfl := Except.ok.inj h
      exact (Kind.name_of_ofName? hfound).symm
    · cases h
  · rintro rfl
    exact kindNamed_name kind

mutual

/-- an item is built into the child that it stands for -/
theorem toChild_iff : (item : Form) → {child : Child} → (item.toChild = .ok child ↔ item.Denotes child)
  | .leaf value, child => by
    rw [Form.toChild, toChild_leaf_iff]
    constructor
    · exact .leaf
    · intro h
      cases h with
      | leaf hvalue => exact hvalue
  | .node name items, child => by
    rw [Form.toChild, bind_ok_iff]
    constructor
    · rintro ⟨kind, hkind, h⟩
      obtain ⟨children, hchildren, hchild⟩ := bind_ok_iff.1 h
      obtain rfl := Except.ok.inj hchild
      obtain rfl := kindNamed_iff.1 hkind
      exact .node kind ((toChildren_iff items).1 hchildren)
    · intro h
      cases h with
      | node kind hitems =>
        exact ⟨kind, kindNamed_name kind, bind_ok_iff.2 ⟨_, (toChildren_iff items).2 hitems, rfl⟩⟩

theorem toChildren_iff : (items : List Form) → {children : List Child} →
    (Form.toChildren items = .ok children ↔ Form.AllDenote items children)
  | [], children => by
    rw [Form.toChildren]
    constructor
    · intro h
      obtain rfl := Except.ok.inj h
      exact .nil
    · intro h
      cases h
      rfl
  | item :: later, children => by
    rw [Form.toChildren, bind_ok_iff]
    constructor
    · rintro ⟨child, hchild, h⟩
      obtain ⟨rest, hrest, hchildren⟩ := bind_ok_iff.1 h
      obtain rfl := Except.ok.inj hchildren
      exact .cons ((toChild_iff item).1 hchild) ((toChildren_iff later).1 hrest)
    · intro h
      cases h with
      | cons hitem hlater =>
        exact ⟨_, (toChild_iff item).2 hitem, bind_ok_iff.2 ⟨_, (toChildren_iff later).2 hlater, rfl⟩⟩

end

theorem toNode_iff {group : Group} {node : Node} :
    group.toNode = .ok node ↔ group.toForm.Denotes (Child.ofNode node) := by
  rw [← toChild_iff, Group.toForm, Form.toChild, Group.toNode, bind_ok_iff, bind_ok_iff]
  refine exists_congr fun kind => and_congr_right fun _ => ?_
  rw [bind_ok_iff, bind_ok_iff]
  refine exists_congr fun children => and_congr_right fun _ => ?_
  constructor
  · intro h
    rw [← Except.ok.inj h]
    rfl
  · intro h
    obtain ⟨rfl, rfl⟩ := Child.node.inj (Except.ok.inj h)
    rfl

/-! ## The reader -/

/-- **A text is read as a tree exactly when it spells the tree.** No other text is read, none is read as another tree,
and none that the grammar allows is refused. -/
theorem read_iff_spells (text : String) (node : Node) : read text = .ok node ↔ Spells node text.toList := by
  unfold read readChars
  constructor
  · intro h
    split at h
    · cases h
    · rename_i group hgroup
      exact ⟨group, readGroup_iff.1 hgroup, toNode_iff.1 h⟩
  · rintro ⟨group, hgroup, hnode⟩
    rw [readGroup_iff.2 hgroup]
    exact toNode_iff.2 hnode

end RubySignature.Sexp
