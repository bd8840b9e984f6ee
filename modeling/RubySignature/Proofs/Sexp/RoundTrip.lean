/-
Printing a tree and reading it back.

`read_text` says when that is lossless: exactly when every number in the tree is finite. A tree of finite numbers is
read back as itself, whatever its kinds, its depth, its names and its strings; and a text that was printed for a tree
with an infinity or a NaN is malformed, since no token starts where that number stands.

Both halves are an induction on the printed tree. Its invariant is about the text after a child: reading a printed child
in front of a text that goes on as a printed tree does moves the child to the open node and leaves that text
(`readItems_child`), and the child is fit to be built again (`toChild_toForm`). With a number that is not finite in the
child, reading it is an error wherever it stands (`readItems_child_notFinite`).
-/
import RubySignature.Proofs.Sexp.Tokens
import RubySignature.Sexp.Reader

namespace RubySignature

/-! ## Numbers in a tree -/

mutual

/-- the numbers in a child, at any depth -/
def Child.floats : Child → List Double
  | .node _ children => Child.allFloats children
  | .float value => [value]
  | .symbol _ | .int _ | .str _ | .nil => []

def Child.allFloats : List Child → List Double
  | [] => []
  | child :: later => child.floats ++ Child.allFloats later

end

def Node.floats (node : Node) : List Double := Child.allFloats node.children

def AllFinite (numbers : List Double) : Prop := ∀ x ∈ numbers, x.isFinite = true

instance (numbers : List Double) : Decidable (AllFinite numbers) := inferInstanceAs (Decidable (∀ x ∈ numbers, _))

theorem allFinite_append {a b : List Double} : AllFinite (a ++ b) ↔ AllFinite a ∧ AllFinite b :=
  List.forall_mem_append

namespace Sexp

/-! ## Steps of the reader -/

variable {top : Frame} {outer : List Frame} {s rest : List Char}

theorem readItems_leaf {value : Leaf} (h : Token.next (skip s) = .ok (.leaf value, rest)) :
    readItems top outer s = readItems (top.push (.leaf value)) outer rest := by
  rw [readItems]
  split <;> simp_all

theorem readItems_opening {name : String} (h : Token.next (skip s) = .ok (.opening name, rest)) :
    readItems top outer s = readItems ⟨name, []⟩ (top :: outer) rest := by
  rw [readItems]
  split <;> simp_all

theorem readItems_closing {frame : Frame} (h : Token.next (skip s) = .ok (.closing, rest)) :
    readItems top (frame :: outer) s = readItems (frame.push top.close.toForm) outer rest := by
  rw [readItems]
  split <;> simp_all

theorem readItems_last (h : Token.next (skip s) = .ok (.closing, rest)) :
    readItems top [] s = .ok (top.close, rest) := by
  rw [readItems]
  split <;> simp_all

theorem readItems_fault {fault : Fault} (h : Token.next (skip s) = .error fault) :
    readItems top outer s = .error fault := by
  rw [readItems]
  split <;> simp_all

/-! ## Printed trees as forms -/

mutual

def toForm : Child → Form
  | .node kind children => .node kind.name (toForms children)
  | .symbol name => .leaf (.symbol name)
  | .int value => .leaf (.integer (String.ofList (intChars value.toInt)))
  | .float value => .leaf (.float value)
  | .str text => .leaf (.str text)
  | .nil => .leaf .nil

def toForms : List Child → List Form
  | [] => []
  | child :: later => toForm child :: toForms later

end

theorem kindNamed_name (kind : Kind) : kindNamed kind.name = .ok kind := by
  unfold kindNamed
  rw [Kind.ofName?_name]

mutual

theorem toChild_toForm : (child : Child) → (toForm child).toChild = .ok child
  | .node kind children => by
    rw [toForm, Form.toChild, kindNamed_name, toChildren_toForms children]
    rfl
  | .symbol name => rfl
  | .int value => by
    rw [toForm, Form.toChild, Leaf.toChild, String.toList_ofList, wordOfDecimal_intChars]
  | .float value => rfl
  | .str text => rfl
  | .nil => rfl

theorem toChildren_toForms : (children : List Child) → Form.toChildren (toForms children) = .ok children
  | [] => rfl
  | child :: later => by
    rw [toForms, Form.toChildren, toChild_toForm child, toChildren_toForms later]
    rfl

end

/-! ## Reading printed trees -/

theorem readItems_leaf_blank {value : Leaf} (h : Token.next s = .ok (.leaf value, rest)) :
    readItems top outer (' ' :: s) = readItems (top.push (.leaf value)) outer rest := by
  apply readItems_leaf
  rw [skip_blank, skip_of_next h]
  exact h

theorem readItems_opening_blank (kind : Kind) (h : Ends rest) :
    readItems top outer (' ' :: '(' :: (kind.name.toList ++ rest)) = readItems ⟨kind.name, []⟩ (top :: outer) rest := by
  have hnext := next_opening kind h
  apply readItems_opening
  rw [skip_blank, skip_of_next hnext]
  exact hnext

theorem chars_node (kind : Kind) (children : List Child) (rest : List Char) :
    (Child.node kind children).chars ++ rest =
      '(' :: (kind.name.toList ++ (Child.spacedChars children ++ ')' :: rest)) := by
  simp [Child.chars]

theorem ends_spacedChars (children : List Child) (h : Ends rest) : Ends (Child.spacedChars children ++ rest) := by
  cases children with
  | nil => exact h
  | cons child later => exact ends_blank _

def pushAll (top : Frame) (items : List Form) : Frame := items.foldl Frame.push top

theorem pushAll_eq (top : Frame) (items : List Form) : pushAll top items = ⟨top.name, items.reverse ++ top.recent⟩ := by
  unfold pushAll
  induction items generalizing top with
  | nil => rfl
  | cons item later ih =>
    rw [List.foldl_cons, ih, List.reverse_cons, List.append_assoc]
    rfl

theorem close_pushAll (name : String) (items : List Form) : (pushAll ⟨name, []⟩ items).close = ⟨name, items⟩ := by
  rw [pushAll_eq, Frame.close, List.append_nil, List.reverse_reverse]

mutual

/-- **A printed child is read as one item**, and the text after it is left. -/
theorem readItems_child (top : Frame) (outer : List Frame) : (child : Child) → AllFinite child.floats →
    {rest : List Char} → Ends rest →
      readItems top outer (' ' :: child.chars ++ rest) = readItems (top.push (toForm child)) outer rest
  | .node kind children, hfinite, rest, hrest => by
    have hitems := readItems_children ⟨kind.name, []⟩ (top :: outer) children hfinite (ends_closing rest)
    have hclosing : Token.next (skip (')' :: rest)) = .ok (.closing, rest) := next_closing rest
    rw [List.cons_append, chars_node]
    calc readItems top outer (' ' :: '(' :: (kind.name.toList ++ (Child.spacedChars children ++ ')' :: rest)))
      _ = readItems ⟨kind.name, []⟩ (top :: outer) (Child.spacedChars children ++ ')' :: rest) :=
        readItems_opening_blank kind (ends_spacedChars children (ends_closing rest))
      _ = readItems (pushAll ⟨kind.name, []⟩ (toForms children)) (top :: outer) (')' :: rest) := hitems
      _ = readItems (top.push (toForm (.node kind children))) outer rest := by
        rw [readItems_closing hclosing, close_pushAll]
        rfl
  | .symbol name, _, rest, hrest => readItems_leaf_blank (next_symbol name hrest)
  | .int value, _, rest, hrest => readItems_leaf_blank (next_int value hrest)
  | .float value, hfinite, rest, hrest =>
    readItems_leaf_blank (next_finite (hfinite value List.mem_cons_self) hrest)
  | .str text, _, rest, hrest => readItems_leaf_blank (next_str text rest)
  | .nil, _, rest, hrest => readItems_leaf_blank (next_nil hrest)

theorem readItems_children (top : Frame) (outer : List Frame) : (children : List Child) →
    AllFinite (Child.allFloats children) → {rest : List Char} → Ends rest →
      readItems top outer (Child.spacedChars children ++ rest) = readItems (pushAll top (toForms children)) outer rest
  | [], _, rest, hrest => rfl
  | child :: later, hfinite, rest, hrest => by
    obtain ⟨hchild, hlater⟩ := allFinite_append.1 hfinite
    rw [Child.spacedChars, List.append_assoc, readItems_child top outer child hchild (ends_spacedChars later hrest),
      readItems_children _ outer later hlater hrest]
    rfl

end

mutual

/-- **A printed child with a number that is not finite is an error**, wherever in it the number stands. -/
theorem readItems_child_notFinite (top : Frame) (outer : List Frame) : (child : Child) → ¬ AllFinite child.floats →
    {rest : List Char} → Ends rest → ∃ fault, readItems top outer (' ' :: child.chars ++ rest) = .error fault
  | .node kind children, hfinite, rest, hrest => by
    obtain ⟨fault, hfault⟩ := readItems_children_notFinite ⟨kind.name, []⟩ (top :: outer) children hfinite
      (ends_closing rest)
    refine ⟨fault, ?_⟩
    rw [List.cons_append, chars_node]
    exact (readItems_opening_blank kind (ends_spacedChars children (ends_closing rest))).trans hfault
  | .float value, hfinite, rest, hrest => by
    have hvalue : value.isFinite = false := by
      by_contra htrue
      apply hfinite
      intro x hx
      rw [List.mem_singleton.1 hx]
      exact Bool.eq_true_of_not_eq_false htrue
    have hfault : Token.next (skip (' ' :: (value.chars ++ rest))) = .error ⟨.item, value.chars ++ rest⟩ := by
      rw [skip_blank]
      exact next_notFinite hvalue rest
    exact ⟨_, readItems_fault hfault⟩
  | .symbol _, hfinite, _, _ | .int _, hfinite, _, _ | .str _, hfinite, _, _ | .nil, hfinite, _, _ =>
    absurd (fun _ hx => absurd hx List.not_mem_nil) hfinite

theorem readItems_children_notFinite (top : Frame) (outer : List Frame) : (children : List Child) →
    ¬ AllFinite (Child.allFloats children) → {rest : List Char} → Ends rest →
      ∃ fault, readItems top outer (Child.spacedChars children ++ rest) = .error fault
  | [], hfinite, _, _ => absurd (fun _ hx => absurd hx List.not_mem_nil) hfinite
  | child :: later, hfinite, rest, hrest => by
    rw [Child.spacedChars, List.append_assoc]
    by_cases hchild : AllFinite child.floats
    · have hlater : ¬ AllFinite (Child.allFloats later) := fun h => hfinite (allFinite_append.2 ⟨hchild, h⟩)
      rw [readItems_child top outer child hchild (ends_spacedChars later hrest)]
      exact readItems_children_notFinite _ outer later hlater hrest
    · exact readItems_child_notFinite top outer child hchild (ends_spacedChars later hrest)

end

/-! ## Whole trees -/

def toGroup (node : Node) : Group := ⟨node.kind.name, toForms node.children⟩

theorem toNode_toGroup (node : Node) : (toGroup node).toNode = .ok node := by
  rw [toGroup, Group.toNode, kindNamed_name, toChildren_toForms]
  rfl

theorem chars_eq (node : Node) :
    node.chars = '(' :: (node.kind.name.toList ++ (Child.spacedChars node.children ++ [')'])) := by
  simp [Node.chars]

theorem readGroup_paren (s : List Char) :
    readGroup ('(' :: s) =
      match scanKind? (skip s) with
      | none => .error ⟨.kindName, skip s⟩
      | some (name, rest) =>
        match readItems ⟨name, []⟩ [] rest with
        | .error fault => .error fault
        | .ok (group, rest) => if (skip rest).isEmpty then .ok group else .error ⟨.endOfText, skip rest⟩ := rfl

/-- an outermost node is read item by item from behind its name on -/
theorem readGroup_node (kind : Kind) (h : Ends rest) :
    readGroup ('(' :: (kind.name.toList ++ rest)) =
      match readItems ⟨kind.name, []⟩ [] rest with
      | .error fault => .error fault
      | .ok (group, rest) => if (skip rest).isEmpty then .ok group else .error ⟨.endOfText, skip rest⟩ := by
  rw [readGroup_paren, scanKind?_name kind h]

theorem readGroup_chars (node : Node) (h : AllFinite node.floats) : readGroup node.chars = .ok (toGroup node) := by
  have hitems := readItems_children ⟨node.kind.name, []⟩ [] node.children h (ends_closing [])
  have hclosing : Token.next (skip [')']) = .ok (.closing, []) := next_closing []
  rw [chars_eq, readGroup_node node.kind (ends_spacedChars node.children (ends_closing [])), hitems,
    readItems_last hclosing, close_pushAll]
  rfl

theorem readGroup_chars_notFinite (node : Node) (h : ¬ AllFinite node.floats) :
    ∃ fault, readGroup node.chars = .error fault := by
  obtain ⟨fault, hfault⟩ := readItems_children_notFinite ⟨node.kind.name, []⟩ [] node.children h (ends_closing [])
  refine ⟨fault, ?_⟩
  rw [chars_eq, readGroup_node node.kind (ends_spacedChars node.children (ends_closing [])), hfault]

end Sexp

/-! ## Equality of trees -/

mutual

/-- a child without a NaN is equal to itself -/
theorem Child.agrees_self : (child : Child) → AllFinite child.floats → child.agrees child = true
  | .node kind children, hfinite => by
    rw [Child.agrees, beq_self_eq_true, Child.allAgree_self children hfinite]
    rfl
  | .symbol name, _ => beq_self_eq_true name
  | .int value, _ => beq_self_eq_true value
  | .float value, hfinite => by
    have hvalue := hfinite value List.mem_cons_self
    cases value with
    | finite negative rank => simp [Child.agrees, Double.numericEq]
    | nan => cases hvalue
    | infinite negative => cases hvalue
  | .str text, _ => beq_self_eq_true text
  | .nil, _ => rfl

theorem Child.allAgree_self : (children : List Child) → AllFinite (Child.allFloats children) →
    Child.allAgree children children = true
  | [], _ => rfl
  | child :: later, hfinite => by
    obtain ⟨hchild, hlater⟩ := allFinite_append.1 hfinite
    rw [Child.allAgree, Child.agrees_self child hchild, Child.allAgree_self later hlater]
    rfl

end

theorem Node.agrees_self (node : Node) (h : AllFinite node.floats) : node.agrees node = true := by
  rw [Node.agrees, beq_self_eq_true, Child.allAgree_self node.children h]
  rfl

/-! ## The round trip -/

/-- **Printing is lossless exactly on finite trees.** If every number in a tree is finite, its text is read as the tree
itself, which is equal to itself as a tree of numbers; if some number is not, the text is malformed. -/
theorem Sexp.read_text (node : Node) :
    (AllFinite node.floats → read node.text = .ok node ∧ node.agrees node = true) ∧
    (¬ AllFinite node.floats → ∃ position expected, read node.text = .error (.malformed position expected)) := by
  have hread : read node.text = readChars node.chars := by
    rw [read, Node.text, String.toList_ofList]
  constructor
  · intro h
    refine ⟨?_, node.agrees_self h⟩
    rw [hread, readChars, readGroup_chars node h]
    exact toNode_toGroup node
  · intro h
    obtain ⟨fault, hfault⟩ := readGroup_chars_notFinite node h
    rw [hread, readChars, hfault]
    exact ⟨_, _, rfl⟩

/-- A negative zero and a name that needs quotes come through; a NaN does not. -/
theorem Sexp.read_text_zero_nan :
    (AllFinite (Node.floats ⟨.float, [.float (.finite true ⟨0, by decide⟩), .symbol "a b"]⟩) ∧
      read (Node.text ⟨.float, [.float (.finite true ⟨0, by decide⟩), .symbol "a b"]⟩) =
        .ok ⟨.float, [.float (.finite true ⟨0, by decide⟩), .symbol "a b"]⟩) ∧
    (¬ AllFinite (Node.floats ⟨.array, [.node .float [.float .nan]]⟩) ∧
      ∃ position expected, read (Node.text ⟨.array, [.node .float [.float .nan]]⟩) =
        .error (.malformed position expected)) := by
  refine ⟨?_, ?_⟩
  · have h : AllFinite (Node.floats ⟨.float, [.float (.finite true ⟨0, by decide⟩), .symbol "a b"]⟩) := by decide
    exact ⟨h, ((read_text _).1 h).1⟩
  · have h : ¬ AllFinite (Node.floats ⟨.array, [.node .float [.float .nan]]⟩) := by decide
    exact ⟨h, (read_text _).2 h⟩

end RubySignature
