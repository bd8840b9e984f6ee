/-
The limit on nested nodes.

A pass with a limit either breaks off, at a node that is nested too deep, or comes to what any pass with a greater limit
comes to. It cannot break off unless some nodes are nested in one another beyond the limit, and for a tree that can be
rendered at all the limit is exact: the pass breaks off just if there are such nodes among those that are rendered. These
are all but the lambda of a lambda literal, with what stands below it, and a list of a block or method that has no
children. `unparseWith_depth` says the three together.

Nested nodes are chains from the root of the tree, each node a child of the one before. A chain that is too long is taken
apart from its root, level by level, just as the verdict on the tree is, so both directions of the last part are one
induction on the levels that are left.
-/
import RubySignature.Proofs.Render.Defects
import RubySignature.Proofs.Render.Transparency

namespace RubySignature

/-! ## Chains -/

/-- The child at the place is not rendered with its parent: it is the lambda that a block calls, or a list of a block or
method that has no children. -/
def Node.PassesOver (parent : Node) (index : Nat) (child : Node) : Prop :=
  index = 0 ∧ parent.kind = .block ∧ child.kind = .lambda ∨
    index = 1 ∧ (parent.kind = .block ∨ parent.kind = .methodDef) ∧ child.children = []

/-- The child is a child of the parent and is rendered with it. -/
def Node.Reaches (parent child : Node) : Prop :=
  ∃ index, parent.children[index]? = some (.ofNode child) ∧ ¬ parent.PassesOver index child

def Node.Holds (parent child : Node) : Prop := child ∈ parent.nodes

/-- From the root of the tree there is a chain of more nodes than the limit, each below the one before. -/
def ChainBeyond (below : Node → Node → Prop) (limit : Nat) (tree : Node) : Prop :=
  ∃ later, List.IsChain below (tree :: later) ∧ limit < (tree :: later).length

section

variable {below : Node → Node → Prop} {limit : Nat} {tree : Node}

theorem chainBeyond_zero : ChainBeyond below 0 tree := ⟨[], .singleton tree, Nat.succ_pos _⟩

theorem chainBeyond_succ : ChainBeyond below (limit + 1) tree ↔ ∃ child, below tree child ∧ ChainBeyond below limit child := by
  constructor
  · rintro ⟨later, hchain, hlength⟩
    cases later with
    | nil => exact absurd hlength (by simp)
    | cons child later =>
      obtain ⟨hchild, hlater⟩ := List.isChain_cons_cons.1 hchain
      exact ⟨child, hchild, later, hlater, Nat.lt_of_succ_lt_succ hlength⟩
  · rintro ⟨child, hchild, later, hchain, hlength⟩
    exact ⟨child :: later, .cons_cons hchild hchain, Nat.succ_lt_succ hlength⟩

end

/-! ## Nodes that are visited -/

namespace Node

theorem mem_nodes_iff {node child : Node} :
    child ∈ node.nodes ↔ ∃ index : Nat, node.children[index]? = some (.ofNode child) := by
  unfold nodes
  rw [List.mem_filterMap]
  constructor
  · rintro ⟨found, hfound, hnode⟩
    rw [Child.eq_ofNode_of_node? hnode] at hfound
    exact List.mem_iff_getElem?.1 hfound
  · intro hindex
    exact ⟨.ofNode child, List.mem_iff_getElem?.2 hindex, rfl⟩

theorem mem_parts_iff {node child : Node} : child ∈ node.parts ↔ child ∈ node.nodes := by
  unfold parts
  split
  · by_cases hkind : child.kind = .shadowarg <;> simp [hkind]
  · exact Iff.rfl

theorem mem_unlessLambda_iff {node child : Node} : child ∈ node.unlessLambda ↔ child = node ∧ child.kind ≠ .lambda := by
  unfold unlessLambda
  rw [List.mem_ite_nil_left, List.mem_singleton]
  constructor
  · rintro ⟨hkind, rfl⟩
    exact ⟨rfl, hkind⟩
  · rintro ⟨rfl, hkind⟩
    exact ⟨hkind, rfl⟩

theorem mem_unlessChildless_iff {node child : Node} :
    child ∈ node.unlessChildless ↔ child = node ∧ child.children ≠ [] := by
  unfold unlessChildless
  rw [List.mem_ite_nil_left, List.mem_singleton, List.isEmpty_iff]
  constructor
  · rintro ⟨hchildren, rfl⟩
    exact ⟨rfl, hchildren⟩
  · rintro ⟨rfl, hchildren⟩
    exact ⟨hchildren, rfl⟩

theorem visits_eq_parts_of_kind_ne {node : Node} (hblock : node.kind ≠ .block) (hmethod : node.kind ≠ .methodDef) :
    node.visits = node.parts := by
  unfold visits
  split
  · exact absurd ‹node.kind = .block› hblock
  · exact absurd ‹node.kind = .methodDef› hmethod
  · rfl

/-- The call, the list and the body of a block are rendered in this order, if they are there. -/
theorem exists_block_parts {children : List Child} (h : Node.checkShape ⟨.block, children⟩ = .ok ()) :
    ∃ call params : Node, ∃ body : Child, children = [.ofNode call, .ofNode params, body] ∧
      Node.visits ⟨.block, children⟩ = call.unlessLambda ++ params.unlessChildless ++ body.node?.toList := by
  rcases children with _ | ⟨call, _ | ⟨params, _ | ⟨body, _ | ⟨next, later⟩⟩⟩⟩
  · cases h
  · cases h
  · cases h
  · cases call with
    | symbol _ | int _ | float _ | str _ | nil => cases h
    | node kind below =>
      cases params with
      | symbol _ | int _ | float _ | str _ | nil => cases h
      | node listKind listed =>
        refine ⟨⟨kind, below⟩, ⟨listKind, listed⟩, body, rfl, ?_⟩
        cases body <;> rfl
  · cases h

theorem exists_method_parts {children : List Child} (h : Node.checkShape ⟨.methodDef, children⟩ = .ok ()) :
    ∃ (name : String) (params : Node) (body : Child), children = [.symbol name, .ofNode params, body] ∧
      Node.visits ⟨.methodDef, children⟩ = params.unlessChildless ++ body.node?.toList := by
  rcases children with _ | ⟨name, _ | ⟨params, _ | ⟨body, _ | ⟨next, later⟩⟩⟩⟩
  · cases h
  · cases h
  · cases h
  · cases name with
    | node _ _ | int _ | float _ | str _ | nil => cases h
    | symbol name =>
      cases params with
      | symbol _ | int _ | float _ | str _ | nil => cases h
      | node listKind listed =>
        refine ⟨name, ⟨listKind, listed⟩, body, rfl, ?_⟩
        cases body <;> rfl
  · cases h

theorem reaches_block_iff {call params child : Node} {body : Child} :
    Reaches ⟨.block, [.ofNode call, .ofNode params, body]⟩ child ↔
      child ∈ call.unlessLambda ++ params.unlessChildless ++ body.node?.toList := by
  rw [List.mem_append, List.mem_append, mem_unlessLambda_iff, mem_unlessChildless_iff, Option.mem_toList]
  constructor
  · rintro ⟨index, hchild, hpassed⟩
    rcases index with _ | _ | _ | index
    · obtain rfl := Child.ofNode_inj.1 (Option.some.inj hchild)
      exact Or.inl (Or.inl ⟨rfl, by simpa [PassesOver] using hpassed⟩)
    · obtain rfl := Child.ofNode_inj.1 (Option.some.inj hchild)
      exact Or.inl (Or.inr ⟨rfl, by simpa [PassesOver] using hpassed⟩)
    · obtain rfl : body = .ofNode child := Option.some.inj hchild
      exact Or.inr rfl
    · cases hchild
  · rintro ((⟨rfl, hkind⟩ | ⟨rfl, hchildren⟩) | hbody)
    · exact ⟨0, rfl, by simp [PassesOver, hkind]⟩
    · exact ⟨1, rfl, by simp [PassesOver, hchildren]⟩
    · exact ⟨2, congrArg some (Child.eq_ofNode_of_node? hbody), by simp [PassesOver]⟩

theorem reaches_method_iff {name : String} {params child : Node} {body : Child} :
    Reaches ⟨.methodDef, [.symbol name, .ofNode params, body]⟩ child ↔
      child ∈ params.unlessChildless ++ body.node?.toList := by
  rw [List.mem_append, mem_unlessChildless_iff, Option.mem_toList]
  constructor
  · rintro ⟨index, hchild, hpassed⟩
    rcases index with _ | _ | _ | index
    · cases Option.some.inj hchild
    · obtain rfl := Child.ofNode_inj.1 (Option.some.inj hchild)
      exact Or.inl ⟨rfl, by simpa [PassesOver] using hpassed⟩
    · obtain rfl : body = .ofNode child := Option.some.inj hchild
      exact Or.inr rfl
    · cases hchild
  · rintro (⟨rfl, hchildren⟩ | hbody)
    · exact ⟨1, rfl, by simp [PassesOver, hchildren]⟩
    · exact ⟨2, congrArg some (Child.eq_ofNode_of_node? hbody), by simp [PassesOver]⟩

/-- Nodes of other kinds pass over nothing. -/
theorem reaches_iff_mem_nodes {node child : Node} (hblock : node.kind ≠ .block) (hmethod : node.kind ≠ .methodDef) :
    node.Reaches child ↔ child ∈ node.nodes := by
  rw [mem_nodes_iff]
  exact exists_congr fun index => by simp [PassesOver, hblock, hmethod]

/-- **What is rendered with a node.** In a well-shaped node the visits are the nodes that it does not pass over. -/
theorem mem_visits_iff {node child : Node} (h : node.checkShape = .ok ()) : child ∈ node.visits ↔ node.Reaches child := by
  by_cases hblock : node.kind = .block
  · obtain ⟨kind, children⟩ := node
    obtain rfl : kind = .block := hblock
    obtain ⟨call, params, body, rfl, hvisits⟩ := exists_block_parts h
    rw [hvisits, reaches_block_iff]
  · by_cases hmethod : node.kind = .methodDef
    · obtain ⟨kind, children⟩ := node
      obtain rfl : kind = .methodDef := hmethod
      obtain ⟨name, params, body, rfl, hvisits⟩ := exists_method_parts h
      rw [hvisits, reaches_method_iff]
    · rw [visits_eq_parts_of_kind_ne hblock hmethod, mem_parts_iff, reaches_iff_mem_nodes hblock hmethod]

end Node

/-! ## Verdicts under a limit -/

/-- what a node fails by itself is never its depth -/
theorem check_ne_depthExceeded (node : Node) (enclosing : Enclosing) (limit : Nat) :
    node.check enclosing ≠ .error (.depthExceeded limit) := by
  unfold Node.check allowForwarding
  intro h
  split at h
  · cases h
  · split at h
    · cases h
    · split at h <;> cases h

/-- A verdict that the levels were used up shows a chain that uses them up, by induction on the levels that are left. -/
theorem chainBeyond_of_verdict {limit levels exceeded : Nat} {enclosing : Enclosing} {tree : Node}
    (h : verdict limit levels enclosing tree = .error (.depthExceeded exceeded)) :
    ChainBeyond Node.Holds levels tree := by
  induction levels generalizing enclosing tree with
  | zero => exact chainBeyond_zero
  | succ levels ih =>
    rw [verdict, bind_error_iff] at h
    rcases h with hcheck | ⟨_, _, hvisits⟩
    · exact absurd hcheck (check_ne_depthExceeded tree enclosing exceeded)
    · obtain ⟨child, hchild, herror⟩ := exists_of_forM_error hvisits
      exact chainBeyond_succ.2 ⟨child, Node.mem_nodes_of_visits hchild, ih herror⟩

/-- A tree that passes with some limit passes with every other, or there is a chain of visited nodes that uses up the
levels. The induction is on these levels; what the tree had to pass elsewhere tells that nothing else is wrong. -/
theorem verdict_of_ok {limit levels limit' levels' : Nat} {enclosing : Enclosing} {tree : Node}
    (h : verdict limit' levels' enclosing tree = .ok ()) :
    ChainBeyond Node.Reaches levels tree ∧ verdict limit levels enclosing tree = .error (.depthExceeded limit) ∨
      ¬ ChainBeyond Node.Reaches levels tree ∧ verdict limit levels enclosing tree = .ok () := by
  induction levels generalizing levels' enclosing tree with
  | zero => exact Or.inl ⟨chainBeyond_zero, rfl⟩
  | succ levels ih =>
    cases levels' with
    | zero => cases h
    | succ levels' =>
      obtain ⟨_, hcheck, hvisits⟩ := bind_ok_iff.1 h
      have hmem (child : Node) : child ∈ tree.visits ↔ tree.Reaches child :=
        Node.mem_visits_iff (checkShape_of_check hcheck)
      have hbelow := fun child hchild => ih (forM_ok_iff.1 hvisits child hchild)
      have hverdict : verdict limit (levels + 1) enclosing tree =
          forM tree.visits (verdict limit levels (.ofParent tree)) := by
        rw [verdict, hcheck]
        rfl
      rw [chainBeyond_succ, hverdict]
      cases hforM : forM tree.visits (verdict limit levels (.ofParent tree)) with
      | ok value =>
        refine Or.inr ⟨?_, rfl⟩
        rintro ⟨child, hreaches, hchain⟩
        have hchild := (hmem child).2 hreaches
        rcases hbelow child hchild with ⟨_, herror⟩ | ⟨hnone, _⟩
        · rw [forM_ok_iff.1 hforM child hchild] at herror
          cases herror
        · exact hnone hchain
      | error error =>
        obtain ⟨child, hchild, herror⟩ := exists_of_forM_error hforM
        rcases hbelow child hchild with ⟨hchain, hexceeded⟩ | ⟨_, hok⟩
        · obtain rfl : error = .depthExceeded limit := Except.error.inj (herror.symm.trans hexceeded)
          exact Or.inl ⟨⟨child, (hmem child).1 hchild, hchain⟩, rfl⟩
        · rw [hok] at herror
          cases herror

/-! ## Whole passes -/

theorem unparseWith_error_iff {limit : Nat} {tree : Node} {error : EmitError} :
    unparseWith Host.basic limit tree = .error error ↔ verdict limit limit .other tree = .error error := by
  rw [← unparseWith_verdict]
  cases unparseWith Host.basic limit tree with
  | ok text => simp [Except.map]
  | error found => simp [Except.map]

theorem verdict_of_unparseWith {limit : Nat} {tree : Node} {text : String}
    (h : unparseWith Host.basic limit tree = .ok text) : verdict limit limit .other tree = .ok () := by
  rw [← unparseWith_verdict, h]
  rfl

/-- With an eager host a pass gives what the visit of its tree gives: the error, or the text that is there then. -/
theorem unparseWith_eq_map {host : Host} (heager : host.Eager) (limit : Nat) (tree : Node) :
    unparseWith host limit tree = (Emitter.visitor host tree (Emitter.start limit)).1.map fun _ =>
      (Emitter.visitor host tree (Emitter.start limit)).2.output.text := by
  have htext := ((Emitter.start limit).after_accounted host (RenderM.visit tree).run).2
  change (Emitter.visitor host tree (Emitter.start limit)).2.output.text = "" ++ Event.text (passLog host limit tree) at htext
  rw [unparseWith_of_eager heager, passLog_explained heager, htext, String.empty_append]
  unfold Event.outcomeOf
  cases Event.failures (passLog host limit tree) <;> rfl

theorem unparseWith_of_le {host : Host} (heager : host.Eager) {limit limit' : Nat} (hle : limit ≤ limit') (tree : Node) :
    unparseWith host limit tree = .error (.depthExceeded limit) ∨
      unparseWith host limit tree = unparseWith host limit' tree := by
  have hbeside : Beside (limit < limit') (.start limit) (.start limit') (Emitter.visitor host tree (.start limit))
      (Emitter.visitor host tree (.start limit')) := descend_beside heager hle tree fun _ => rfl
  rw [unparseWith_eq_map heager, unparseWith_eq_map heager]
  rcases hbeside with ⟨_, hexceeded⟩ | ⟨hresult, added, htext, htext'⟩
  · exact Or.inl (congrArg (Except.map _) hexceeded)
  · rcases hresult with hsame | ⟨hexceeded, _⟩
    · rw [hsame, htext, htext']
      exact Or.inr rfl
    · exact Or.inl (congrArg (Except.map _) hexceeded)

/-! ## Main result -/

/-- **The limit is exact, and otherwise does not show.** With the host for Ruby,
- a pass breaks off because nodes are nested beyond its limit, or it comes to what every pass with a greater limit does;
- it breaks off only if in the tree there is a chain of nested nodes, more than the limit;
- if the tree is rendered with some limit, then with any other a pass breaks off exactly if there is such a chain among
  the nodes that are rendered with their parents. -/
theorem unparseWith_depth (tree : Node) :
    (∀ limit limit', limit ≤ limit' → unparseWith Host.basic limit tree = .error (.depthExceeded limit) ∨
      unparseWith Host.basic limit tree = unparseWith Host.basic limit' tree) ∧
    (∀ limit, ¬ ChainBeyond Node.Holds limit tree →
      ∀ exceeded, unparseWith Host.basic limit tree ≠ .error (.depthExceeded exceeded)) ∧
    (∀ limit' text, unparseWith Host.basic limit' tree = .ok text →
      ∀ limit, unparseWith Host.basic limit tree = .error (.depthExceeded limit) ↔
        ChainBeyond Node.Reaches limit tree) := by
  refine ⟨fun limit limit' hle => unparseWith_of_le Host.basic_eager hle tree, ?_, ?_⟩
  · intro limit hnone exceeded h
    exact hnone (chainBeyond_of_verdict (unparseWith_error_iff.1 h))
  · intro limit' text h limit
    rw [unparseWith_error_iff]
    rcases verdict_of_ok (verdict_of_unparseWith h) with ⟨hchain, herror⟩ | ⟨hnone, hok⟩
    · exact iff_of_true herror hchain
    · exact iff_of_false (by simp [hok]) hnone

/-- a lambda literal whose lambda has two arrays below it, one in the other -/
def burdenedLambda : Node :=
  ⟨.block, [.ofNode (.ofNodes .lambda [.ofNodes .array [.leaf .array]]), .ofNode (.leaf .args), .nil]⟩

def nestedArray : Node := .ofNodes .array [.leaf .array]

/-- The arrays below the lambda are a chain that does not count, so one level is enough there; arrays that are rendered
need a level each. -/
theorem unparseWith_depth_arrays :
    (ChainBeyond Node.Holds 1 burdenedLambda ∧ ¬ ChainBeyond Node.Reaches 1 burdenedLambda ∧
      unparseWith Host.basic 256 burdenedLambda = .ok "-> \x7b \x7d") ∧
    (ChainBeyond Node.Reaches 1 nestedArray ∧ unparseWith Host.basic 1 nestedArray = .error (.depthExceeded 1)) ∧
    (¬ ChainBeyond Node.Holds 2 nestedArray ∧
      ∀ exceeded, unparseWith Host.basic 2 nestedArray ≠ .error (.depthExceeded exceeded)) := by
  obtain ⟨hgreater, -, hexact⟩ := unparseWith_depth burdenedLambda
  obtain ⟨-, hnested, hexactArray⟩ := unparseWith_depth nestedArray
  have hlambda : unparseWith Host.basic 1 burdenedLambda = .ok "-> \x7b \x7d" := rfl
  have harray : unparseWith Host.basic 2 nestedArray = .ok "[[]]" := rfl
  refine ⟨⟨⟨[_], .cons_cons List.mem_cons_self (.singleton _), by decide⟩, ?_, ?_⟩, ?_, ?_⟩
  · intro hchain
    have hexceeded := (hexact 1 _ hlambda 1).2 hchain
    rw [hlambda] at hexceeded
    cases hexceeded
  · rcases hgreater 1 256 (by decide) with hexceeded | hsame
    · rw [hlambda] at hexceeded
      cases hexceeded
    · exact hsame.symm.trans hlambda
  · have hreaches : nestedArray.Reaches (.leaf .array) := ⟨0, rfl, by simp [Node.PassesOver, nestedArray, Node.ofNodes]⟩
    have hchain : ChainBeyond Node.Reaches 1 nestedArray := ⟨[_], .cons_cons hreaches (.singleton _), by decide⟩
    exact ⟨hchain, (hexactArray 2 _ harray 1).2 hchain⟩
  · have hnone : ¬ ChainBeyond Node.Holds 2 nestedArray := by
      intro hchain
      obtain ⟨child, hchild, hlater⟩ := chainBeyond_succ.1 hchain
      obtain rfl : child = .leaf .array := List.mem_singleton.1 hchild
      obtain ⟨below, hbelow, -⟩ := chainBeyond_succ.1 hlater
      cases hbelow
    exact ⟨hnone, hnested 2 hnone⟩

end RubySignature
