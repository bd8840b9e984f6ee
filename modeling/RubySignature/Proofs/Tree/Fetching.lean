/-
Which children are fetched.

Every way of fetching the children of a node succeeds on some lists of children and gives what stands in them. For each
there is one lemma that says which lists these are, so that what a decoder or a renderer accepts can be read off the
children without looking into how they are fetched.
-/
import Mathlib.Data.List.Basic
import RubySignature.Param.View
import RubySignature.Proofs.Outcomes

namespace RubySignature

/-! ## Counts -/

namespace Count

variable {n found : Nat}

theorem holds_exactly : (exactly n).holds found = true ↔ found = n := by
  have hboth : (exactly n).holds found = true ↔ n ≤ found ∧ found ≤ n := by simp [holds, exactly]
  rw [hboth]
  omega

theorem holds_atMostOne : atMostOne.holds found = true ↔ found ≤ 1 := by simp [holds, atMostOne]

theorem holds_atLeast : (atLeast n).holds found = true ↔ n ≤ found := by simp [holds, atLeast]

end Count

/-! ## Children -/

namespace Child

theorem symbol?_eq_some_iff {child : Child} {name : String} : child.symbol? = some name ↔ child = .symbol name := by
  cases child <;> simp [symbol?]

theorem node?_eq_some_iff {child : Child} {node : Node} : child.node? = some node ↔ child = .ofNode node :=
  ⟨eq_ofNode_of_node?, fun h => h ▸ node?_ofNode node⟩

theorem ofNode_inj {node another : Node} : ofNode node = ofNode another ↔ node = another := by
  constructor
  · intro h
    exact Option.some.inj (congrArg node? h)
  · rintro rfl
    rfl

end Child

/-! ## Nodes whose children are nodes -/

theorem nodes_ofNodes (kind : Kind) (nodes : List Node) : (Node.ofNodes kind nodes).nodes = nodes := by
  unfold Node.nodes Node.ofNodes
  rw [List.filterMap_map]
  exact List.filterMap_some

theorem ofNodes_inj {kind : Kind} {nodes others : List Node} (h : Node.ofNodes kind nodes = .ofNodes kind others) :
    nodes = others := by
  rw [← nodes_ofNodes kind nodes, h, nodes_ofNodes]

/-! ## Fetching -/

/-- no child, or a nil in its place, or a child that stands for the value -/
inductive OptionalChild {α : Type} (child : α → Child) : List Child → Option α → Prop where
  | missing : OptionalChild child [] none
  | nil : OptionalChild child [.nil] none
  | present (value : α) : OptionalChild child [child value] (some value)

namespace Node

variable {node : Node}

theorem expectCount_ok_iff {count : Count} {value : Unit} :
    node.expectCount count = .ok value ↔ count.holds node.children.length = true := by
  unfold expectCount
  split
  · rename_i h
    exact iff_of_true rfl h
  · rename_i h
    exact iff_of_false nofun h

theorem symbolAt_ok_iff {index : Nat} {name : String} :
    node.symbolAt index = .ok name ↔ node.children[index]? = some (.symbol name) := by
  have hsymbol : node.children[index]?.bind Child.symbol? = some name ↔ node.children[index]? = some (.symbol name) := by
    simp [Option.bind_eq_some_iff, Child.symbol?_eq_some_iff]
  rw [← hsymbol]
  unfold symbolAt
  cases node.children[index]?.bind Child.symbol? <;> simp

theorem nodeAt_ok_iff {index : Nat} {child : Node} :
    node.nodeAt index = .ok child ↔ node.children[index]? = some (.ofNode child) := by
  have hnode : node.children[index]?.bind Child.node? = some child ↔ node.children[index]? = some (.ofNode child) := by
    simp [Option.bind_eq_some_iff, Child.node?_eq_some_iff]
  rw [← hnode]
  unfold nodeAt
  cases node.children[index]?.bind Child.node? <;> simp

theorem nodesOf_ok_iff {kind : Kind} {index : Nat} {children : List Child} {nodes : List Node} :
    nodesOf kind index children = .ok nodes ↔ children = nodes.map .ofNode := by
  constructor
  · intro h
    induction children generalizing index nodes with
    | nil =>
      cases h
      rfl
    | cons child later ih =>
      rw [nodesOf] at h
      cases hnode : child.node? with
      | none =>
        rw [hnode] at h
        cases h
      | some node =>
        rw [hnode] at h
        obtain ⟨others, hlater, rfl⟩ := map_ok_iff.1 h
        rw [List.map_cons, ← ih hlater, Child.eq_ofNode_of_node? hnode]
  · rintro rfl
    induction nodes generalizing index with
    | nil => rfl
    | cons node later ih =>
      rw [List.map_cons, nodesOf, Child.node?_ofNode]
      dsimp only
      rw [ih]
      rfl

theorem childNodes_ok_iff {nodes : List Node} : node.childNodes = .ok nodes ↔ node.children = nodes.map .ofNode :=
  nodesOf_ok_iff

theorem nonEmptyNodes_ok_iff {nodes : List Node} :
    node.nonEmptyNodes = .ok nodes ↔ node.children = nodes.map .ofNode ∧ nodes ≠ [] := by
  unfold nonEmptyNodes
  rw [bind_ok_iff]
  simp only [expectCount_ok_iff, Count.holds_atLeast, childNodes_ok_iff]
  constructor
  · rintro ⟨_, hlength, hnodes⟩
    rw [hnodes, List.length_map] at hlength
    exact ⟨hnodes, List.length_pos_iff.1 hlength⟩
  · rintro ⟨hnodes, hne⟩
    rw [hnodes, List.length_map]
    exact ⟨(), List.length_pos_iff.2 hne, rfl⟩

theorem soleSymbol_ok_iff {name : String} : node.soleSymbol = .ok name ↔ node.children = [.symbol name] := by
  unfold soleSymbol
  rw [bind_ok_iff]
  simp only [expectCount_ok_iff, Count.holds_exactly, symbolAt_ok_iff]
  constructor
  · rintro ⟨_, hlength, hname⟩
    obtain ⟨child, hchildren⟩ := List.length_eq_one_iff.1 hlength
    rw [hchildren] at hname ⊢
    rw [Option.some.inj hname]
  · intro h
    rw [h]
    exact ⟨(), rfl, rfl⟩

theorem nameAndDefault_ok_iff {name : String} {default : Node} :
    node.nameAndDefault = .ok (name, default) ↔ node.children = [.symbol name, .ofNode default] := by
  unfold nameAndDefault
  simp only [bind_ok_iff, expectCount_ok_iff, Count.holds_exactly, symbolAt_ok_iff, nodeAt_ok_iff]
  constructor
  · rintro ⟨_, hlength, name, hname, default, hdefault, hpair⟩
    obtain ⟨first, second, hchildren⟩ := List.length_eq_two.1 hlength
    obtain ⟨rfl, rfl⟩ := Prod.mk.inj (Except.ok.inj hpair)
    rw [hchildren] at hname hdefault ⊢
    rw [Option.some.inj hname, Option.some.inj hdefault]
  · intro h
    rw [h]
    exact ⟨(), rfl, name, rfl, default, rfl, rfl⟩

theorem soleOptionalSymbol_ok_iff {name? : Option String} :
    node.soleOptionalSymbol = .ok name? ↔ OptionalChild .symbol node.children name? := by
  obtain ⟨kind, children⟩ := node
  constructor
  · intro h
    rcases children with _ | ⟨child, _ | ⟨next, later⟩⟩
    · obtain rfl := Except.ok.inj h
      exact .missing
    · cases child with
      | symbol name =>
        obtain rfl := Except.ok.inj h
        exact .present name
      | nil =>
        obtain rfl := Except.ok.inj h
        exact .nil
      | node | int | float | str => cases h
    · cases h
  · intro h
    cases h <;> rfl

theorem soleOptionalNode_ok_iff {node? : Option Node} :
    node.soleOptionalNode = .ok node? ↔ OptionalChild .ofNode node.children node? := by
  obtain ⟨kind, children⟩ := node
  constructor
  · intro h
    rcases children with _ | ⟨child, _ | ⟨next, later⟩⟩
    · obtain rfl := Except.ok.inj h
      exact .missing
    · cases child with
      | node kind below =>
        obtain rfl := Except.ok.inj h
        exact OptionalChild.present (Node.mk kind below)
      | nil =>
        obtain rfl := Except.ok.inj h
        exact .nil
      | symbol | int | float | str => cases h
    · cases h
  · intro h
    cases h <;> rfl

end Node

end RubySignature
