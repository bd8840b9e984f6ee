/-
What each kind demands of its children.

Three tables say how many children a node of a kind has, of which sort the child at each place is, and where a nil may
stand instead. `Node.checkShape` looks a node up in them: first the number of its children, then one child after the
other. The decoder of parameters finds the same fault, or none (`Param.ofNode_checkShape`); the checks of the host are compared
with the tables where the host is.
-/
import RubySignature.Proofs.Tree.Fetching

namespace RubySignature

/-! ## Tables -/

def ChildSort.holds : ChildSort → Child → Bool
  | .symbol, .symbol _ => true
  | .node, .node _ _ => true
  | .integer, .int _ => true
  | .float, .float _ => true
  | .string, .str _ => true
  | _, _ => false

namespace Kind

def count : Kind → Count
  | .kwnilarg | .forwardArg | .nilLiteral | .trueLiteral | .falseLiteral | .selfReference => .exactly 0
  | .arg | .shadowarg | .kwarg | .argExpr | .int | .float | .str | .sym | .lvar | .ivar => .exactly 1
  | .optarg | .kwoptarg => .exactly 2
  | .block | .methodDef => .exactly 3
  | .restarg | .kwrestarg | .blockarg | .blockPass => .atMostOne
  | .procarg0 | .mlhs => .atLeast 1
  | .send => .atLeast 2
  | .args | .array | .lambda => .atLeast 0

def sortAt : Kind → Nat → ChildSort
  | .arg, _ | .shadowarg, _ | .kwarg, _ | .restarg, _ | .kwrestarg, _ | .blockarg, _ => .symbol
  | .sym, _ | .lvar, _ | .ivar, _ => .symbol
  | .optarg, 0 | .kwoptarg, 0 | .methodDef, 0 | .send, 1 => .symbol
  | .int, _ => .integer
  | .float, _ => .float
  | .str, _ => .string
  | _, _ => .node

/-- Whether a nil may stand in place of the child. -/
def allowsNil : Kind → Nat → Bool
  | .restarg, 0 | .kwrestarg, 0 | .blockarg, 0 | .blockPass, 0 | .send, 0 | .block, 2 | .methodDef, 2 => true
  | _, _ => false

end Kind

namespace Node

/-- Whether the child suits the place in the node. A sole parameter may be a name without a node of its own. -/
def accepts (node : Node) (index : Nat) (child : Child) : Bool :=
  (node.kind.sortAt index).holds child || (node.kind.allowsNil index && child.isNil) ||
    (node.kind == .procarg0 && node.children.length == 1 && ChildSort.symbol.holds child)

/-- Fails at the first of some children that does not suit its place; `index` is the place of the first of them. -/
def checkFrom (node : Node) : Nat → List Child → Except ShapeError Unit
  | _, [] => .ok ()
  | index, child :: later =>
    if node.accepts index child then node.checkFrom (index + 1) later
    else .error (node.childTypeError index (node.kind.sortAt index))

/-- Fails unless the children are as many as the kind demands and suit their places. -/
def checkShape (node : Node) : Except ShapeError Unit := do
  node.expectCount node.kind.count
  node.checkFrom 0 node.children

/-! ## Faults -/

/-- children that suit their places are no fault -/
theorem checkFrom_ok_iff {node : Node} {index : Nat} {children : List Child} :
    node.checkFrom index children = .ok () ↔
      ∀ place child, children[place]? = some child → node.accepts (index + place) child = true := by
  induction children generalizing index with
  | nil => simp [checkFrom]
  | cons child children ih =>
    rw [checkFrom]
    constructor
    · intro h place found hfound
      split at h
      · rename_i haccepts
        cases place with
        | zero =>
          obtain rfl := Option.some.inj hfound
          exact haccepts
        | succ place =>
          have hlater := ih.1 h place found hfound
          rwa [Nat.add_assoc, Nat.add_comm 1] at hlater
      · cases h
    · intro h
      have hfirst : node.accepts index child = true := h 0 child rfl
      rw [if_pos hfirst, ih]
      intro place found hfound
      have hlater := h (place + 1) found hfound
      rwa [Nat.add_assoc, Nat.add_comm 1]

/-- what comes before a place suits if the first child does, and what comes before the place among the others -/
theorem accepts_earlier_cons {node : Node} {index place : Nat} {child : Child} {children : List Child} :
    (∀ earlier < place + 1, ∀ other, (child :: children)[earlier]? = some other →
      node.accepts (index + earlier) other = true) ↔
    node.accepts index child = true ∧ ∀ earlier < place, ∀ other, children[earlier]? = some other →
      node.accepts (index + 1 + earlier) other = true := by
  constructor
  · intro h
    refine ⟨h 0 (Nat.succ_pos place) child rfl, fun earlier hlt other hother => ?_⟩
    rw [Nat.add_assoc, Nat.add_comm 1]
    exact h (earlier + 1) (Nat.succ_lt_succ hlt) other hother
  · rintro ⟨hchild, h⟩ earlier hlt other hother
    cases earlier with
    | zero =>
      obtain rfl := Option.some.inj hother
      exact hchild
    | succ earlier =>
      have hlater := h earlier (Nat.lt_of_succ_lt_succ hlt) other hother
      rwa [Nat.add_assoc, Nat.add_comm 1] at hlater

/-- the fault of a list of children is at the first that does not suit its place -/
theorem checkFrom_error_iff {node : Node} {index : Nat} {children : List Child} {error : ShapeError} :
    node.checkFrom index children = .error error ↔ ∃ place child, children[place]? = some child ∧
      node.accepts (index + place) child = false ∧
        (∀ earlier < place, ∀ other, children[earlier]? = some other → node.accepts (index + earlier) other = true) ∧
          error = node.childTypeError (index + place) (node.kind.sortAt (index + place)) := by
  induction children generalizing index with
  | nil => exact iff_of_false nofun (by rintro ⟨place, child, h, -⟩; cases h)
  | cons child children ih =>
    rw [checkFrom]
    by_cases haccepts : node.accepts index child = true
    · rw [if_pos haccepts, ih]
      constructor
      · rintro ⟨place, found, hfound, hrefused, hearlier, herror⟩
        rw [Nat.add_assoc, Nat.add_comm 1] at hrefused herror
        exact ⟨place + 1, found, hfound, hrefused, accepts_earlier_cons.2 ⟨haccepts, hearlier⟩, herror⟩
      · rintro ⟨place, found, hfound, hrefused, hearlier, herror⟩
        cases place with
        | zero =>
          obtain rfl := Option.some.inj hfound
          exact absurd haccepts (Bool.eq_false_iff.1 hrefused)
        | succ place =>
          rw [← Nat.add_comm 1, ← Nat.add_assoc] at hrefused herror
          exact ⟨place, found, hfound, hrefused, (accepts_earlier_cons.1 hearlier).2, herror⟩
    · rw [if_neg haccepts]
      have hrefused : node.accepts index child = false := Bool.eq_false_iff.2 haccepts
      constructor
      · intro h
        exact ⟨0, child, rfl, hrefused, fun earlier hlt => absurd hlt (Nat.not_lt_zero earlier), (Except.error.inj h).symm⟩
      · rintro ⟨place, found, hfound, hplace, hearlier, rfl⟩
        cases place with
        | zero => rfl
        | succ place => exact absurd (accepts_earlier_cons.1 hearlier).1 haccepts

/-- the children are as many as the kind demands, and suit their places -/
structure WellShaped (node : Node) : Prop where
  count : node.kind.count.holds node.children.length = true
  accepts : ∀ index child, node.children[index]? = some child → node.accepts index child = true

theorem checkShape_ok_iff {node : Node} : node.checkShape = .ok () ↔ node.WellShaped := by
  unfold checkShape expectCount
  by_cases hcount : node.kind.count.holds node.children.length = true
  · rw [if_pos hcount]
    change node.checkFrom 0 node.children = .ok () ↔ _
    rw [checkFrom_ok_iff]
    simp only [Nat.zero_add]
    exact ⟨fun h => ⟨hcount, h⟩, fun h => h.accepts⟩
  · rw [if_neg hcount]
    constructor
    · intro h
      cases h
    · intro h
      exact absurd h.count hcount

/-- a fault is a wrong number of children, or a child that does not suit its place -/
inductive Fault (node : Node) : ShapeError → Prop where
  | arity (h : node.kind.count.holds node.children.length = false) : Fault node (node.arityError node.kind.count)
  | childType {index : Nat} {child : Child} (hchild : node.children[index]? = some child)
    (h : node.accepts index child = false) : Fault node (node.childTypeError index (node.kind.sortAt index))

/-- the fault that is reported: a wrong number of children before all else, then the first child that does not suit its
place -/
inductive FirstFault (node : Node) : ShapeError → Prop where
  | arity (h : node.kind.count.holds node.children.length = false) :
    FirstFault node (.arity node.kind node.kind.count.phrase node.children.length)
  | childType {index : Nat} {child : Child} (hcount : node.kind.count.holds node.children.length = true)
    (hchild : node.children[index]? = some child) (h : node.accepts index child = false)
    (hearlier : ∀ earlier < index, ∀ other, node.children[earlier]? = some other → node.accepts earlier other = true) :
    FirstFault node (.childType node.kind index (node.kind.sortAt index))

theorem checkShape_error_iff {node : Node} {error : ShapeError} :
    node.checkShape = .error error ↔ node.FirstFault error := by
  unfold checkShape expectCount
  by_cases hcount : node.kind.count.holds node.children.length = true
  · rw [if_pos hcount]
    change node.checkFrom 0 node.children = .error error ↔ _
    rw [checkFrom_error_iff]
    simp only [Nat.zero_add]
    constructor
    · rintro ⟨index, child, hchild, hrefused, hearlier, rfl⟩
      exact .childType hcount hchild hrefused hearlier
    · intro h
      cases h with
      | arity h => exact absurd hcount (Bool.eq_false_iff.1 h)
      | childType _ hchild hrefused hearlier => exact ⟨_, _, hchild, hrefused, hearlier, rfl⟩
  · rw [if_neg hcount]
    constructor
    · intro h
      obtain rfl := Except.error.inj h
      exact .arity (Bool.eq_false_iff.2 hcount)
    · intro h
      cases h with
      | arity => rfl
      | childType h => exact absurd h hcount

theorem fault_of_checkShape {node : Node} {error : ShapeError} (h : node.checkShape = .error error) :
    node.Fault error := by
  cases checkShape_error_iff.1 h with
  | arity hcount => exact .arity hcount
  | childType _ hchild hrefused => exact .childType hchild hrefused

end Node

/-! ## Decoding -/

namespace Node

/-- the nodes among the children, those of a parameter list with the block-locals last -/
def parts (node : Node) : List Node :=
  match node.kind with
  | .args => node.nodes.filter (·.kind ≠ .shadowarg) ++ node.nodes.filter (·.kind = .shadowarg)
  | _ => node.nodes

/-- Every place from one on is for a node, and nothing else may stand there. -/
structure DemandsNodes (node : Node) (index : Nat) : Prop where
  sort : ∀ place, index ≤ place → node.kind.sortAt place = .node
  nil : ∀ place, index ≤ place → node.kind.allowsNil place = false
  sole : node.kind ≠ .procarg0 ∨ node.children.length ≠ 1

theorem DemandsNodes.accepts {node : Node} {index : Nat} (h : node.DemandsNodes index) (child : Child) :
    node.accepts index child = ChildSort.node.holds child := by
  have hsole : (node.kind == .procarg0 && node.children.length == 1) = false := by
    rcases h.sole with hkind | hlength
    · simp [hkind]
    · simp [hlength]
  unfold Node.accepts
  rw [h.sort index (Nat.le_refl index), h.nil index (Nat.le_refl index), hsole]
  simp

theorem DemandsNodes.next {node : Node} {index : Nat} (h : node.DemandsNodes index) : node.DemandsNodes (index + 1) :=
  ⟨fun place hle => h.sort place (by omega), fun place hle => h.nil place (by omega), h.sole⟩

/-- where only nodes may stand, fetching them finds the fault that the tables have -/
theorem nodesOf_checkFrom {node : Node} {index : Nat} (h : node.DemandsNodes index) (children : List Child) :
    nodesOf node.kind index children = (node.checkFrom index children).map fun _ => children.filterMap Child.node? := by
  induction children generalizing index with
  | nil => rfl
  | cons child children ih =>
    rw [checkFrom, h.accepts, h.sort index (Nat.le_refl index), nodesOf, ih h.next]
    cases child with
    | node kind below =>
      change Except.map _ (Except.map _ (node.checkFrom (index + 1) children)) =
        (node.checkFrom (index + 1) children).map _
      cases node.checkFrom (index + 1) children <;> rfl
    | symbol name | int value | float value | str text | nil => rfl

theorem childNodes_checkFrom {node : Node} (h : node.DemandsNodes 0) :
    node.childNodes = (node.checkFrom 0 node.children).map fun _ => node.nodes := nodesOf_checkFrom h node.children

/-- where any number of nodes is allowed, fetching them is the whole check -/
theorem childNodes_checkShape {node : Node} (hcount : node.kind.count = .atLeast 0) (h : node.DemandsNodes 0) :
    node.childNodes = node.checkShape.map fun _ => node.nodes := by
  unfold checkShape expectCount
  rw [childNodes_checkFrom h, hcount]
  rfl

theorem nonEmptyNodes_checkShape {node : Node} (hcount : node.kind.count = .atLeast 1) (h : node.DemandsNodes 0) :
    node.nonEmptyNodes = node.checkShape.map fun _ => node.nodes := by
  unfold nonEmptyNodes checkShape
  rw [childNodes_checkFrom h, hcount]
  cases node.expectCount (.atLeast 1) <;> rfl

end Node

namespace Param

/-- the kind of node that is decoded as the parameter -/
def kind : Param → Kind
  | .args _ => .args
  | .arg _ => .arg
  | .shadowarg _ => .shadowarg
  | .optarg _ _ => .optarg
  | .kwarg _ => .kwarg
  | .kwoptarg _ _ => .kwoptarg
  | .restarg _ => .restarg
  | .kwrestarg _ => .kwrestarg
  | .kwnilarg => .kwnilarg
  | .forwardArg => .forwardArg
  | .blockarg _ => .blockarg
  | .blockPass _ => .blockPass
  | .argExpr _ => .argExpr
  | .procarg0 _ => .procarg0
  | .mlhs _ => .mlhs

/-- the nodes in a decoded parameter, ordinary parameters before block-locals -/
def nodes : Param → List Node
  | .args list => list.normal ++ list.shadow
  | .optarg _ default | .kwoptarg _ default => [default]
  | .blockPass expr? => expr?.toList
  | .argExpr body => [body]
  | .procarg0 (.patterns nodes) | .mlhs nodes => nodes
  | _ => []

/-- the kind and the nodes -/
def outline (param : Param) : Kind × List Node := (param.kind, param.nodes)

end Param

/-- **A parameter is decoded exactly when it is well shaped**, and otherwise has the first fault that the tables have. It
keeps its kind, and all the nodes in it are found. -/
theorem Param.ofNode_checkShape (node : Node) (h : node.kind.isParameter = true) :
    (Param.ofNode node).map Param.outline = node.checkShape.map fun _ => (node.kind, node.parts) := by
  obtain ⟨kind, children⟩ := node
  cases kind <;> simp only [Kind.isParameter, Bool.false_eq_true] at h
  case arg | shadowarg | kwarg | restarg | kwrestarg | blockarg | blockPass | argExpr =>
    rcases children with _ | ⟨child, _ | ⟨next, later⟩⟩
    · rfl
    · cases child <;> rfl
    · rfl
  case optarg | kwoptarg =>
    rcases children with _ | ⟨name, _ | ⟨default, _ | ⟨next, later⟩⟩⟩
    · rfl
    · rfl
    · cases name <;> cases default <;> rfl
    · rfl
  case kwnilarg | forwardArg =>
    rcases children with _ | ⟨child, later⟩ <;> rfl
  case args =>
    have hdemands : Node.DemandsNodes ⟨.args, children⟩ 0 := ⟨fun _ _ => rfl, fun _ _ => rfl, Or.inl Kind.noConfusion⟩
    have hnodes := Node.childNodes_checkShape rfl hdemands
    change ((Node.childNodes ⟨.args, children⟩).map fun nodes => Param.args (.partition nodes)).map Param.outline = _
    rw [hnodes]
    cases Node.checkShape ⟨.args, children⟩ <;> rfl
  case mlhs =>
    have hdemands : Node.DemandsNodes ⟨.mlhs, children⟩ 0 := ⟨fun _ _ => rfl, fun _ _ => rfl, Or.inl Kind.noConfusion⟩
    have hnodes := Node.nonEmptyNodes_checkShape rfl hdemands
    change ((Node.nonEmptyNodes ⟨.mlhs, children⟩).map Param.mlhs).map Param.outline = _
    rw [hnodes]
    cases Node.checkShape ⟨.mlhs, children⟩ <;> rfl
  case procarg0 =>
    rcases children with _ | ⟨child, _ | ⟨next, later⟩⟩
    · rfl
    · cases child <;> rfl
    · -- more than one child: each of them has to be a node
      have hdemands : Node.DemandsNodes ⟨.procarg0, child :: next :: later⟩ 0 :=
        ⟨fun _ _ => rfl, fun _ _ => rfl, Or.inr (by simp)⟩
      have hnodes := Node.nonEmptyNodes_checkShape rfl hdemands
      have hdecode : Param.ofNode ⟨.procarg0, child :: next :: later⟩ =
          (Node.nonEmptyNodes ⟨.procarg0, child :: next :: later⟩).map fun nodes => .procarg0 (.patterns nodes) := by
        cases child <;> rfl
      rw [hdecode, hnodes]
      cases Node.checkShape ⟨.procarg0, child :: next :: later⟩ <;> rfl

theorem Param.nodes_ofNode {node : Node} (h : node.kind.isParameter = true) :
    (Param.ofNode node).map Param.nodes = node.checkShape.map fun _ => node.parts := by
  have hdecode := congrArg (Except.map Prod.snd) (Param.ofNode_checkShape node h)
  cases hparam : Param.ofNode node <;> cases hshape : node.checkShape <;> rw [hparam, hshape] at hdecode <;> exact hdecode

theorem Param.kind_ofNode {node : Node} {param : Param} (h : node.kind.isParameter = true)
    (hparam : Param.ofNode node = .ok param) : param.kind = node.kind := by
  have hdecode := Param.ofNode_checkShape node h
  rw [hparam] at hdecode
  cases hshape : node.checkShape with
  | error error =>
    rw [hshape] at hdecode
    cases hdecode
  | ok value =>
    rw [hshape] at hdecode
    exact (Prod.mk.inj (Except.ok.inj hdecode)).1

end RubySignature
