/-
Decoding a parameter node is exact, and loses nothing.

`Decodes` is the table of parameters: the children that a kind takes and the parameter that they are. The decoder follows
the table and nothing else (`Param.ofNode_ok_iff`), which is read off what each way of fetching children accepts. Where
the table has no row, the fault that is reported is the first one.

What is lost is little, and `Param.ofNode_exact` says what. A nil that stands for no name or no node is the same as no
child, and a list splits into its ordinary parameters and its block-locals, so that of the order of a list only the order
in either of the two is kept (`Interleaves`). Nodes that are decoded as the same parameter differ in nothing else.
-/
import RubySignature.Proofs.Tree.Shapes

namespace RubySignature

/-! ## Lists -/

/-- a list of ordinary parameters with block-locals in between, either of the two in their order -/
inductive Interleaves : List Node → List Node → List Node → Prop where
  | nil : Interleaves [] [] []
  | normal {node : Node} {normal shadow nodes : List Node} (hkind : node.kind ≠ .shadowarg)
    (h : Interleaves normal shadow nodes) : Interleaves (node :: normal) shadow (node :: nodes)
  | shadow {node : Node} {normal shadow nodes : List Node} (hkind : node.kind = .shadowarg)
    (h : Interleaves normal shadow nodes) : Interleaves normal (node :: shadow) (node :: nodes)

namespace ParamList

theorem partition_cons (node : Node) (nodes : List Node) :
    partition (node :: nodes) =
      if node.kind = .shadowarg then ⟨(partition nodes).normal, node :: (partition nodes).shadow⟩
      else ⟨node :: (partition nodes).normal, (partition nodes).shadow⟩ := by
  unfold partition
  by_cases hkind : node.kind = .shadowarg <;> simp [hkind]

theorem interleaves_partition (nodes : List Node) :
    Interleaves (partition nodes).normal (partition nodes).shadow nodes := by
  induction nodes with
  | nil => exact .nil
  | cons node nodes ih =>
    rw [partition_cons]
    split
    · rename_i hkind
      exact .shadow hkind ih
    · rename_i hkind
      exact .normal hkind ih

/-- **A list is split into the two lists that it interleaves**, and into no others. -/
theorem partition_eq_iff {nodes : List Node} {list : ParamList} :
    partition nodes = list ↔ Interleaves list.normal list.shadow nodes := by
  constructor
  · rintro rfl
    exact interleaves_partition nodes
  · obtain ⟨normal, shadow⟩ := list
    intro h
    dsimp only at h
    induction h with
    | nil => rfl
    | normal hkind _ ih => rw [partition_cons, if_neg hkind, ih]
    | shadow hkind _ ih => rw [partition_cons, if_pos hkind, ih]

end ParamList

/-! ## The table -/

/-- the children that a kind takes, and the parameter that they are -/
inductive Decodes : Kind → List Child → Param → Prop where
  | args {nodes : List Node} {list : ParamList} {children : List Child} (hnodes : children = nodes.map .ofNode)
    (hlist : Interleaves list.normal list.shadow nodes) : Decodes .args children (.args list)
  | arg (name : String) : Decodes .arg [.symbol name] (.arg name)
  | shadowarg (name : String) : Decodes .shadowarg [.symbol name] (.shadowarg name)
  | kwarg (name : String) : Decodes .kwarg [.symbol name] (.kwarg name)
  | optarg (name : String) (default : Node) :
    Decodes .optarg [.symbol name, .ofNode default] (.optarg name default)
  | kwoptarg (name : String) (default : Node) :
    Decodes .kwoptarg [.symbol name, .ofNode default] (.kwoptarg name default)
  | restarg {children : List Child} {name? : Option String} (h : OptionalChild .symbol children name?) :
    Decodes .restarg children (.restarg name?)
  | kwrestarg {children : List Child} {name? : Option String} (h : OptionalChild .symbol children name?) :
    Decodes .kwrestarg children (.kwrestarg name?)
  | blockarg {children : List Child} {name? : Option String} (h : OptionalChild .symbol children name?) :
    Decodes .blockarg children (.blockarg name?)
  | kwnilarg : Decodes .kwnilarg [] .kwnilarg
  | forwardArg : Decodes .forwardArg [] .forwardArg
  | blockPass {children : List Child} {expr? : Option Node} (h : OptionalChild .ofNode children expr?) :
    Decodes .blockPass children (.blockPass expr?)
  | argExpr (body : Node) : Decodes .argExpr [.ofNode body] (.argExpr body)
  | soleName (name : String) : Decodes .procarg0 [.symbol name] (.procarg0 (.name name))
  | procarg0 {nodes : List Node} {children : List Child} (hnodes : children = nodes.map .ofNode) (hne : nodes ≠ []) :
    Decodes .procarg0 children (.procarg0 (.patterns nodes))
  | mlhs {nodes : List Node} {children : List Child} (hnodes : children = nodes.map .ofNode) (hne : nodes ≠ []) :
    Decodes .mlhs children (.mlhs nodes)

theorem Decodes.isParameter {kind : Kind} {children : List Child} {param : Param} (h : Decodes kind children param) :
    kind.isParameter = true := by
  cases h <;> rfl

namespace Param

variable {children : List Child} {param : Param}

/-- a parameter that is made of what is fetched -/
theorem map_fetched_iff {α : Type} {fetched : Except ShapeError α} {view : α → Param} :
    (fetched >>= fun value => .ok (view value)) = .ok param ↔ ∃ value, fetched = .ok value ∧ view value = param := by
  rw [bind_ok_iff]
  simp only [Except.ok.injEq]

/-- a sole parameter consists of patterns unless its only child is a name -/
theorem ofNode_patterns (h : ∀ name, children ≠ [.symbol name]) :
    ofNode ⟨.procarg0, children⟩ =
      Node.nonEmptyNodes ⟨.procarg0, children⟩ >>= fun nodes => .ok (.procarg0 (.patterns nodes)) := by
  unfold ofNode
  dsimp only
  split
  · rename_i name
    exact absurd rfl (h name)
  · rfl

/-- what the decoder accepts is in the table -/
theorem decodes_of_ofNode {kind : Kind} (h : ofNode ⟨kind, children⟩ = .ok param) : Decodes kind children param := by
  cases kind with
  | args =>
    obtain ⟨nodes, hnodes, rfl⟩ := map_fetched_iff.1 h
    exact .args (Node.childNodes_ok_iff.1 hnodes) (ParamList.interleaves_partition nodes)
  | arg | shadowarg | kwarg =>
    obtain ⟨name, hname, rfl⟩ := map_fetched_iff.1 h
    obtain rfl := Node.soleSymbol_ok_iff.1 hname
    constructor
  | optarg | kwoptarg =>
    obtain ⟨⟨name, default⟩, hpair, rfl⟩ := map_fetched_iff.1 h
    obtain rfl := Node.nameAndDefault_ok_iff.1 hpair
    constructor
  | restarg | kwrestarg | blockarg =>
    obtain ⟨name?, hname, rfl⟩ := map_fetched_iff.1 h
    constructor
    exact Node.soleOptionalSymbol_ok_iff.1 hname
  | kwnilarg | forwardArg =>
    obtain ⟨_, hcount, rfl⟩ := map_fetched_iff.1 h
    obtain rfl := List.length_eq_zero_iff.1 (Count.holds_exactly.1 (Node.expectCount_ok_iff.1 hcount))
    constructor
  | blockPass =>
    obtain ⟨expr?, hexpr, rfl⟩ := map_fetched_iff.1 h
    exact .blockPass (Node.soleOptionalNode_ok_iff.1 hexpr)
  | argExpr =>
    obtain ⟨_, hcount, hbody⟩ := bind_ok_iff.1 h
    obtain ⟨child, rfl⟩ := List.length_eq_one_iff.1 (Count.holds_exactly.1 (Node.expectCount_ok_iff.1 hcount))
    obtain ⟨body, hfetched, rfl⟩ := map_fetched_iff.1 hbody
    obtain rfl := Option.some.inj (Node.nodeAt_ok_iff.1 hfetched)
    exact .argExpr body
  | procarg0 =>
    by_cases hsole : ∃ name, children = [.symbol name]
    · obtain ⟨name, rfl⟩ := hsole
      obtain rfl := Except.ok.inj h
      exact .soleName name
    · rw [ofNode_patterns (not_exists.1 hsole)] at h
      obtain ⟨nodes, hnodes, rfl⟩ := map_fetched_iff.1 h
      obtain ⟨hchildren, hne⟩ := Node.nonEmptyNodes_ok_iff.1 hnodes
      exact .procarg0 hchildren hne
  | mlhs =>
    obtain ⟨nodes, hnodes, rfl⟩ := map_fetched_iff.1 h
    obtain ⟨hchildren, hne⟩ := Node.nonEmptyNodes_ok_iff.1 hnodes
    exact .mlhs hchildren hne
  | _ => cases h

/-- what is in the table is accepted -/
theorem ofNode_of_decodes {kind : Kind} (h : Decodes kind children param) : ofNode ⟨kind, children⟩ = .ok param := by
  cases h with
  | args hnodes hlist =>
    rw [← ParamList.partition_eq_iff.2 hlist]
    exact map_fetched_iff.2 ⟨_, Node.childNodes_ok_iff.2 hnodes, rfl⟩
  | restarg hname | kwrestarg hname | blockarg hname =>
    exact map_fetched_iff.2 ⟨_, Node.soleOptionalSymbol_ok_iff.2 hname, rfl⟩
  | blockPass hexpr => exact map_fetched_iff.2 ⟨_, Node.soleOptionalNode_ok_iff.2 hexpr, rfl⟩
  | @procarg0 nodes _ hnodes hne =>
    have hpatterns : ∀ name, children ≠ [.symbol name] := by
      rintro name rfl
      cases nodes with
      | nil => exact hne rfl
      | cons node nodes => cases (List.cons.inj hnodes).1
    rw [ofNode_patterns hpatterns]
    exact map_fetched_iff.2 ⟨_, Node.nonEmptyNodes_ok_iff.2 ⟨hnodes, hne⟩, rfl⟩
  | mlhs hnodes hne => exact map_fetched_iff.2 ⟨_, Node.nonEmptyNodes_ok_iff.2 ⟨hnodes, hne⟩, rfl⟩
  | _ => rfl

/-- **A node is decoded as the table has it**, and refused where the table has no row. -/
theorem ofNode_ok_iff {node : Node} : ofNode node = .ok param ↔ Decodes node.kind node.children param :=
  ⟨decodes_of_ofNode, ofNode_of_decodes⟩

/-- what is reported of a parameter kind is the first fault of the node -/
theorem ofNode_error_iff {node : Node} {error : ShapeError} (h : node.kind.isParameter = true) :
    ofNode node = .error error ↔ node.FirstFault error := by
  have hdecode := ofNode_checkShape node h
  rw [← Node.checkShape_error_iff]
  cases hparam : ofNode node <;> cases hshape : node.checkShape <;> rw [hparam, hshape] at hdecode
  · rw [Except.error.injEq, Except.error.injEq, Except.error.inj hdecode]
  · cases hdecode
  · cases hdecode
  · exact iff_of_false nofun nofun

theorem ofNode_of_not_isParameter {node : Node} (h : node.kind.isParameter = false) :
    ofNode node = .error (.notParameter node.kind) := by
  obtain ⟨kind, children⟩ := node
  cases kind <;> first | rfl | cases h

end Param

/-! ## What is lost -/

/-- The children are the same, apart from a nil that stands for no child, and from the order of the block-locals of a list
among its other parameters. -/
inductive SameChildren (kind : Kind) : List Child → List Child → Prop where
  | same (children : List Child) : SameChildren kind children children
  | nilAdded (hkind : kind ∈ [.restarg, .kwrestarg, .blockarg, .blockPass]) : SameChildren kind [] [.nil]
  | nilDropped (hkind : kind ∈ [.restarg, .kwrestarg, .blockarg, .blockPass]) : SameChildren kind [.nil] []
  | interleaved {normal shadow nodes others : List Node} (hkind : kind = .args) (hnodes : Interleaves normal shadow nodes)
    (hothers : Interleaves normal shadow others) : SameChildren kind (nodes.map .ofNode) (others.map .ofNode)

theorem OptionalChild.same {α : Type} {child : α → Child} {children others : List Child} {value? : Option α} {kind : Kind}
    (h : OptionalChild child children value?) (hother : OptionalChild child others value?)
    (hkind : kind ∈ [.restarg, .kwrestarg, .blockarg, .blockPass]) : SameChildren kind children others := by
  cases h with
  | missing =>
    cases hother with
    | missing => exact .same []
    | nil => exact .nilAdded hkind
  | nil =>
    cases hother with
    | missing => exact .nilDropped hkind
    | nil => exact .same [.nil]
  | present value =>
    cases hother
    exact .same [child value]

namespace Decodes

variable {kind other : Kind} {children others : List Child} {param : Param}

/-- what is decoded as the same parameter is the same, but for what is lost -/
theorem same (h : Decodes kind children param) (hother : Decodes other others param) :
    kind = other ∧ SameChildren kind children others := by
  cases h with
  | args hnodes hlist =>
    cases hother with
    | args hothers hotherList =>
      rw [hnodes, hothers]
      exact ⟨rfl, .interleaved rfl hlist hotherList⟩
  | restarg h | kwrestarg h | blockarg h | blockPass h =>
    cases hother
    rename_i hother
    exact ⟨rfl, h.same hother (by decide)⟩
  | procarg0 hnodes =>
    cases hother with
    | procarg0 hothers =>
      rw [hnodes, hothers]
      exact ⟨rfl, .same _⟩
  | mlhs hnodes =>
    cases hother with
    | mlhs hothers =>
      rw [hnodes, hothers]
      exact ⟨rfl, .same _⟩
  | _ =>
    cases hother
    exact ⟨rfl, .same _⟩

/-- what is lost makes no difference -/
theorem of_same (h : Decodes kind children param) (hsame : SameChildren kind children others) :
    Decodes kind others param := by
  cases hsame with
  | same => exact h
  | nilAdded hkind =>
    cases h with
    | restarg h | kwrestarg h | blockarg h | blockPass h =>
      cases h
      constructor
      exact .nil
    | _ => exact absurd hkind (by decide)
  | nilDropped hkind =>
    cases h with
    | restarg h | kwrestarg h | blockarg h | blockPass h =>
      cases h
      constructor
      exact .missing
    | _ => exact absurd hkind (by decide)
  | @interleaved normal shadow nodes _ hkind hnodes hothers =>
    subst hkind
    cases h with
    | @args found list _ hfound hlist =>
      have hsplit : ParamList.partition nodes = ⟨normal, shadow⟩ := ParamList.partition_eq_iff.2 hnodes
      have hsame : nodes = found := (List.map_injective_iff.2 fun _ _ => Child.ofNode_inj.1) hfound
      rw [hsame, ParamList.partition_eq_iff.2 hlist] at hsplit
      rw [hsplit]
      exact .args rfl hothers

end Decodes

/-- **Decoding is exact and loses nothing.** -/
theorem Param.ofNode_exact (node : Node) :
    (∀ param, ofNode node = .ok param ↔ node.kind.isParameter = true ∧ Decodes node.kind node.children param) ∧
    (node.kind.isParameter = true → ∀ error, ofNode node = .error error ↔ node.FirstFault error) ∧
    (node.kind.isParameter = false → ofNode node = .error (.notParameter node.kind)) ∧
    ∀ other param, ofNode node = .ok param →
      (ofNode other = .ok param ↔ node.kind = other.kind ∧ SameChildren node.kind node.children other.children) := by
  refine ⟨fun param => ?_, fun h error => ofNode_error_iff h, ofNode_of_not_isParameter, fun other param h => ?_⟩
  · rw [ofNode_ok_iff]
    exact ⟨fun h => ⟨h.isParameter, h⟩, And.right⟩
  · rw [ofNode_ok_iff] at h ⊢
    constructor
    · exact h.same
    · rintro ⟨hkind, hsame⟩
      exact hkind ▸ h.of_same hsame

/-- where the block-local stands is one of the things that are lost -/
example : Param.ofNode ⟨.args, [.node .arg [.symbol "a"], .node .shadowarg [.symbol "x"]]⟩ =
    Param.ofNode ⟨.args, [.node .shadowarg [.symbol "x"], .node .arg [.symbol "a"]]⟩ :=
  rfl

end RubySignature
