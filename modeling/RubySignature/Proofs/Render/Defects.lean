/-
Why rendering fails, and what it lets through.

A rendering of a tree fails only for a defect that is really in the tree: `Defect` lists them with the errors they are
reported as, and `unparseWith_defect` says that every error is one of these, so that a tree without defects is rendered.
In the other direction a tree that is rendered has no defect in any node that was visited (`unparse_visited`). That is
not every node in the tree: a list that belongs to a block or method is dropped unseen when it has no children, whatever
its kind, and so is all that stands below the lambda of a lambda literal (`unparse_dropped`).

Both are read off the verdict on the tree, by induction on the levels that are left. The invariant of the first says
where a node with some levels left stands: in the tree, inside of the construct that its parent makes, and so deep that
it is only out of levels if the tree is too high.
-/
import RubySignature.Proofs.Outcomes
import RubySignature.Proofs.Render.Verdict
import RubySignature.Proofs.Render.Writing

namespace RubySignature

/-! ## Nodes in a tree -/

/-- The node is the root of the tree or stands below it. -/
inductive Node.Occurs (node : Node) : Node → Prop where
  | root : node.Occurs node
  | inside {tree child : Node} (hchild : child ∈ tree.nodes) (h : node.Occurs child) : node.Occurs tree

/-- The node is visited when the tree is rendered. -/
inductive Node.Visited (node : Node) : Node → Prop where
  | root : node.Visited node
  | inside {tree child : Node} (hchild : child ∈ tree.visits) (h : node.Visited child) : node.Visited tree

namespace Node

theorem Occurs.child {node child tree : Node} (h : node.Occurs tree) (hchild : child ∈ node.nodes) :
    child.Occurs tree := by
  induction h with
  | root => exact .inside hchild .root
  | inside hmem _ ih => exact .inside hmem ih

theorem eq_of_occurs_leaf {node : Node} {kind : Kind} (h : node.Occurs (.leaf kind)) : node = .leaf kind := by
  cases h with
  | root => rfl
  | inside hchild => cases hchild

theorem mem_nodes_of_visits {node child : Node} (h : child ∈ node.visits) : child ∈ node.nodes := by
  have hlambda {call : Node} (h : child ∈ call.unlessLambda) : child = call := by
    unfold unlessLambda at h
    split at h
    · cases h
    · exact List.mem_singleton.1 h
  have hchildless {params : Node} (h : child ∈ params.unlessChildless) : child = params := by
    unfold unlessChildless at h
    split at h
    · cases h
    · exact List.mem_singleton.1 h
  unfold visits at h
  split at h
  · rename_i call params body hkind hnodes
    rw [hnodes]
    rcases List.mem_append.1 h with h | h
    · rcases List.mem_append.1 h with h | h
      · exact hlambda h ▸ List.mem_cons_self
      · exact hchildless h ▸ List.mem_cons_of_mem _ List.mem_cons_self
    · exact List.mem_cons_of_mem _ (List.mem_cons_of_mem _ h)
  · rename_i params body hkind hnodes
    rw [hnodes]
    rcases List.mem_append.1 h with h | h
    · exact hchildless h ▸ List.mem_cons_self
    · exact List.mem_cons_of_mem _ h
  · unfold parts at h
    split at h
    · rcases List.mem_append.1 h with h | h
      · exact List.mem_of_mem_filter h
      · exact List.mem_of_mem_filter h
    · exact h

theorem height_lt_of_mem {node child : Node} (h : child ∈ node.nodes) : child.height < node.height := by
  obtain ⟨below, hbelow, hnode⟩ := List.mem_filterMap.1 h
  have hheights := Child.heights_le.1 (Nat.le_refl (Child.heights node.children)) below hbelow
  rw [Child.eq_ofNode_of_node? hnode] at hheights
  exact Nat.lt_succ_of_le hheights

end Node

/-! ## Defects -/

/-- an error, and the defect of a tree that it reports; `limit` is how many nodes may be nested -/
inductive Defect (limit : Nat) (tree : Node) : EmitError → Prop where
  /-- a node has a wrong number of children, or a child of a wrong sort -/
  | shape {node : Node} {error : ShapeError} (hnode : node.Occurs tree) (h : node.Fault error) :
    Defect limit tree (.shape error)
  /-- the list of a block or lambda forwards -/
  | misplaced {block list forward : Node} (hblock : block.Occurs tree) (hblockKind : block.kind = .block)
    (hlist : list ∈ block.nodes) (hlistKind : list.kind = .args) (hforward : forward ∈ list.nodes)
    (hforwardKind : forward.kind = .forwardArg) : Defect limit tree (.misplaced .forwardArg (.ofParent block))
  /-- there is a lambda, which nothing but the call of a block may be -/
  | unsupported {node : Node} (hnode : node.Occurs tree) (hkind : node.kind = .lambda) :
    Defect limit tree (.unsupported .lambda)
  | depthExceeded (h : limit < tree.height) : Defect limit tree (.depthExceeded limit)

/-- a node that stands in the tree, with the construct around it and the levels that are left for it -/
structure Stands (limit : Nat) (tree : Node) (levels : Nat) (enclosing : Enclosing) (node : Node) : Prop where
  occurs : node.Occurs tree
  /-- the construct is made by the parent, and by nothing else -/
  parent : enclosing = .other ∨ ∃ parent : Node, parent.Occurs tree ∧ node ∈ parent.nodes ∧ enclosing = .ofParent parent
  room : levels < node.height → limit < tree.height

theorem Stands.child {limit levels : Nat} {tree node child : Node} {enclosing : Enclosing}
    (h : Stands limit tree (levels + 1) enclosing node) (hchild : child ∈ node.nodes) :
    Stands limit tree levels (.ofParent node) child where
  occurs := h.occurs.child hchild
  parent := Or.inr ⟨node, h.occurs, hchild, rfl⟩
  room := by
    intro hlevels
    have hheight := Node.height_lt_of_mem hchild
    exact h.room (by omega)

theorem block_of_ofParent {parent : Node} (h : Enclosing.ofParent parent ≠ .other) : parent.kind = .block := by
  unfold Enclosing.ofParent at h
  split at h
  · assumption
  · exact absurd rfl h

/-- what a node fails by itself is a defect of the tree -/
theorem defect_of_check {limit levels : Nat} {tree node : Node} {enclosing : Enclosing} {error : EmitError}
    (hstands : Stands limit tree levels enclosing node) (h : node.check enclosing = .error error) :
    Defect limit tree error := by
  unfold Node.check at h
  split at h
  · rename_i hkind
    obtain rfl := Except.error.inj h
    exact .unsupported hstands.occurs hkind
  · split at h
    · rename_i hshape
      obtain rfl := Except.error.inj h
      exact .shape hstands.occurs (Node.fault_of_checkShape hshape)
    · unfold allowForwarding at h
      split at h
      · rename_i hforwarding
        obtain ⟨hother, hforwards⟩ := hforwarding
        obtain rfl := Except.error.inj h
        simp only [Node.forwards, Bool.and_eq_true, decide_eq_true_eq, List.any_eq_true] at hforwards
        obtain ⟨hkind, forward, hforward, hforwardKind⟩ := hforwards
        obtain ⟨parent, hparent, hchild, rfl⟩ := hstands.parent.resolve_left hother
        exact .misplaced hparent (block_of_ofParent hother) hchild hkind hforward hforwardKind
      · cases h

/-- an error of a verdict is a defect of the tree that the node stands in, by induction on the levels left -/
theorem defect_of_verdict {limit levels : Nat} {tree node : Node} {enclosing : Enclosing} {error : EmitError}
    (hstands : Stands limit tree levels enclosing node) (h : verdict limit levels enclosing node = .error error) :
    Defect limit tree error := by
  induction levels generalizing enclosing node with
  | zero =>
    obtain rfl := Except.error.inj h
    exact .depthExceeded (hstands.room (Nat.succ_pos _))
  | succ levels ih =>
    rw [verdict, bind_error_iff] at h
    rcases h with hcheck | ⟨_, _, hvisits⟩
    · exact defect_of_check hstands hcheck
    · obtain ⟨child, hchild, herror⟩ := exists_of_forM_error hvisits
      exact ih (hstands.child (Node.mem_nodes_of_visits hchild)) herror

/-- **Every failure is justified.** For every limit, an error of a pass over a tree reports a defect that the tree has;
so a tree without defects is rendered. The errors that have no defect are never reported: that a node is no parameter
or no parameter list, that another kind than lambda is not supported, and that anything but forwarding is misplaced. -/
theorem unparseWith_defect (limit : Nat) (tree : Node) :
    (∀ error, unparseWith Host.basic limit tree = .error error → Defect limit tree error) ∧
    ((∀ error, ¬ Defect limit tree error) → ∃ text, unparseWith Host.basic limit tree = .ok text) := by
  have hdefect : ∀ error, unparseWith Host.basic limit tree = .error error → Defect limit tree error := by
    intro error h
    have hverdict := unparseWith_verdict limit tree
    rw [h] at hverdict
    exact defect_of_verdict ⟨.root, Or.inl rfl, id⟩ hverdict.symm
  refine ⟨hdefect, ?_⟩
  intro hnone
  cases h : unparseWith Host.basic limit tree with
  | error error => exact absurd (hdefect error h) (hnone error)
  | ok text => exact ⟨text, rfl⟩

/-- a block whose list forwards: `foo { |...| }` -/
def forwardingBlock : Node :=
  ⟨.block, [.ofNode ⟨.send, [.nil, .symbol "foo"]⟩, .ofNode (.ofNodes .args [.leaf .forwardArg]), .nil]⟩

/-- Forwarding is refused in a block, which is a defect of the block; a lone self has none. -/
theorem unparseWith_defect_forwarding :
    (unparseWith Host.basic 256 forwardingBlock = .error (.misplaced .forwardArg .block) ∧
      Defect 256 forwardingBlock (.misplaced .forwardArg .block)) ∧
    ((∀ error, ¬ Defect 256 (.leaf .selfReference) error) ∧
      ∃ text, unparseWith Host.basic 256 (.leaf .selfReference) = .ok text) := by
  have hforwarding : unparseWith Host.basic 256 forwardingBlock = .error (.misplaced .forwardArg .block) := by
    rfl
  have hnone : ∀ error, ¬ Defect 256 (.leaf .selfReference) error := by
    intro error h
    cases h with
    | shape hnode hfault =>
      cases Node.eq_of_occurs_leaf hnode
      cases hfault with
      | arity hcount => cases hcount
      | childType hchild => cases hchild
    | misplaced hblock hkind =>
      cases Node.eq_of_occurs_leaf hblock
      cases hkind
    | unsupported hnode hkind =>
      cases Node.eq_of_occurs_leaf hnode
      cases hkind
    | depthExceeded hheight => exact absurd hheight (by decide)
  exact ⟨⟨hforwarding, (unparseWith_defect 256 forwardingBlock).1 _ hforwarding⟩,
    hnone, (unparseWith_defect 256 (.leaf .selfReference)).2 hnone⟩

/-! ## Nodes that are visited -/

/-- a node that passes its check is well shaped -/
theorem checkShape_of_check {node : Node} {enclosing : Enclosing} (h : node.check enclosing = .ok ()) :
    node.checkShape = .ok () := by
  unfold Node.check at h
  split at h
  · cases h
  · split at h
    · cases h
    · assumption

/-- a tree whose verdict is good has been checked in every node that was visited -/
theorem check_of_verdict {limit levels : Nat} {tree node : Node} {enclosing : Enclosing}
    (h : verdict limit levels enclosing tree = .ok ()) (hnode : node.Visited tree) : node.checkShape = .ok () := by
  induction hnode generalizing levels enclosing with
  | root =>
    cases levels with
    | zero => cases h
    | succ levels =>
      obtain ⟨_, hcheck, _⟩ := bind_ok_iff.1 h
      exact checkShape_of_check hcheck
  | @inside tree child hchild _ ih =>
    cases levels with
    | zero => cases h
    | succ levels =>
      obtain ⟨_, _, hvisits⟩ := bind_ok_iff.1 h
      exact ih (forM_ok_iff.1 hvisits child hchild)

theorem exists_param_of_wellShaped {node : Node} (h : node.WellShaped) (hkind : node.kind.isParameter = true) :
    ∃ param, Param.ofNode node = .ok param := by
  have hdecode := Param.nodes_ofNode hkind
  rw [Node.checkShape_ok_iff.2 h] at hdecode
  cases hparam : Param.ofNode node with
  | error error =>
    rw [hparam] at hdecode
    cases hdecode
  | ok param => exact ⟨param, rfl⟩

/-- the list of a block or method is a node, though of any kind -/
theorem exists_list_of_wellShaped {node : Node} (h : node.WellShaped)
    (hkind : node.kind = .block ∨ node.kind = .methodDef) : ∃ list, node.children[1]? = some (Child.ofNode list) := by
  have hcount : node.kind.count = .exactly 3 := by
    rcases hkind with hkind | hkind <;> rw [hkind] <;> rfl
  have hlength : 3 ≤ node.children.length := by
    have hholds := h.count
    rw [hcount, Count.holds, Bool.and_eq_true, decide_eq_true_eq] at hholds
    exact hholds.1
  have hlist : node.children[1]? = some node.children[1] := List.getElem?_eq_getElem (by omega)
  generalize node.children[1] = list at hlist
  have haccepts := h.accepts 1 list hlist
  cases list with
  | node kind children => exact ⟨⟨kind, children⟩, hlist⟩
  | symbol _ | int _ | float _ | str _ | nil =>
    rcases hkind with hkind | hkind <;> simp [Node.accepts, hkind, Kind.sortAt, Kind.allowsNil, ChildSort.holds] at haccepts

/-- **A tree that is rendered is well shaped wherever it was visited**: every node in it that was visited has the children
that its kind demands, so a parameter among them is decoded, and a block or method has a node in the place of its list. -/
theorem unparse_visited {tree node : Node} {text : String} (h : unparse tree = .ok text) (hnode : node.Visited tree) :
    node.WellShaped ∧
    (node.kind.isParameter = true → ∃ param, Param.ofNode node = .ok param) ∧
    (node.kind = .block ∨ node.kind = .methodDef → ∃ list, node.children[1]? = some (Child.ofNode list)) := by
  have hverdict := unparseWith_verdict defaultLimit tree
  unfold unparse at h
  rw [h] at hverdict
  have hshape := Node.checkShape_ok_iff.1 (check_of_verdict hverdict.symm hnode)
  exact ⟨hshape, exists_param_of_wellShaped hshape, exists_list_of_wellShaped hshape⟩

/-- a method with one parameter: `def foo(x)` -/
def methodOfOne : Node := ⟨.methodDef, [.symbol "foo", .ofNode (.ofNodes .args [⟨.arg, [.symbol "x"]⟩]), .nil]⟩

theorem unparse_visited_method :
    unparse methodOfOne = .ok "def foo(x)\nend" ∧ Node.Visited ⟨.arg, [.symbol "x"]⟩ methodOfOne ∧
      Node.WellShaped ⟨.arg, [.symbol "x"]⟩ := by
  have htext : unparse methodOfOne = .ok "def foo(x)\nend" := rfl
  have hvisited : Node.Visited ⟨.arg, [.symbol "x"]⟩ methodOfOne :=
    .inside List.mem_cons_self (.inside List.mem_cons_self .root)
  exact ⟨htext, hvisited, (unparse_visited htext hvisited).1⟩

def methodOfNameless : Node := ⟨.methodDef, [.symbol "foo", .ofNode (.leaf .arg), .nil]⟩

/-- **A malformed list is dropped.** The list of this method is no parameter list and not even well shaped, and still the
method is rendered, as one without parameters. -/
theorem unparse_dropped :
    unparse methodOfNameless = .ok "def foo\nend" ∧ (Node.leaf .arg).Occurs methodOfNameless ∧
      Param.ofNode (.leaf .arg) = .error (.arity .arg "1" 0) ∧
      methodOfNameless.children[1]? = some (Child.ofNode (.leaf .arg)) ∧ (Node.leaf .arg).kind ≠ .args :=
  ⟨rfl, .inside List.mem_cons_self .root, rfl, rfl, Kind.noConfusion⟩

end RubySignature
