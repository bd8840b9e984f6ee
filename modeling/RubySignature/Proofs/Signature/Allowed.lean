/-
Reading gives only signatures that Ruby allows.

`Allowed` says what a parameter list has to be, and in the terms of the whole tree: which parameters may stand in it in
which order, and what is true of every node in it, however deep. `read_allowed` says that everything that is read is
allowed, from whatever text.

A list that is read is known part by part (`Returned`). What its nodes have in common is carried down from each node to
the nodes in it (`Constituent.child`), so that it holds of every node that occurs in the list, by induction on where the
node stands.
-/
import RubySignature.Proofs.Render.Defects
import RubySignature.Proofs.Signature.Rereading

namespace RubySignature.Signature

/-- what is true of every node in an allowed list -/
structure Permitted (enclosing : Enclosing) (node : Node) : Prop where
  /-- forwarding belongs to method definitions -/
  forwarding : node.kind = .forwardArg → enclosing = .other
  /-- a pattern holds nodes that may stand in one: one at least, and one splat at most -/
  pattern : node.kind = .mlhs ∨ node.kind = .procarg0 →
    ∃ parts, node = .ofNodes node.kind parts ∧ IsPattern (parts.map Node.kind)
  name : ∀ name, .symbol name ∈ node.children → IsName name
  /-- what refuses all keywords is no keyword splat -/
  refusal : node.kind = .kwrestarg → .symbol "nil" ∉ node.children
  default : node.kind = .optarg ∨ node.kind = .kwoptarg →
    ∃ name value, node.children = [.symbol name, .ofNode value] ∧ ReadDefault value
  decoded : node.kind.isParameter = true → ∃ param, Param.ofNode node = .ok param

/-- a parameter list that Ruby allows inside the given construct -/
structure Allowed (enclosing : Enclosing) (list : Node) : Prop where
  /-- ordinary parameters in signature order, or the sole parameter of a block, and then block-locals -/
  order : ∃ (normals : List Node) (shadows : List String),
    list = .ofNodes .args (normals ++ shadows.map shadowNode) ∧
      (InOrder enclosing (normals.map Node.kind) ∨ enclosing = .block ∧ normals.map Node.kind = [.procarg0])
  /-- a sole parameter stands directly in the list, alone before the block-locals, and nowhere else -/
  sole : ∀ node : Node, node.Occurs list → node.kind = .procarg0 →
    ∃ shadows : List String, list = .ofNodes .args (node :: shadows.map shadowNode)
  nodes : ∀ node : Node, node.Occurs list → Permitted enclosing node

/-! ## Nodes of a list -/

/-- a node that stands in a list, but for the sole parameter of a block -/
inductive Constituent (enclosing : Enclosing) : Node → Prop where
  | param {node : Node} (h : ReadParam node) (hforward : node.kind = .forwardArg → enclosing = .other) :
      Constituent enclosing node
  | shadow {name : String} (h : IsName name) : Constituent enclosing (shadowNode name)
  | default {node : Node} (h : ReadDefault node) : Constituent enclosing node

theorem IsDefault.readDefault {node : Node} (h : IsDefault node) : ReadDefault node := by
  cases h with
  | int value => exact .int value
  | str h => exact .str _
  | sym h => exact .sym (isName_of_isIdentifier h)
  | word h => exact .word h
  | call h hdigit hword => exact .call h hdigit hword

section

variable {enclosing : Enclosing} {node below : Node}

/-- a default value has no nodes in it -/
theorem ReadDefault.nodes_eq (h : ReadDefault node) : node.nodes = [] := by
  cases h <;> rfl

/-- a default value is no parameter -/
theorem ReadDefault.isParameter (h : ReadDefault node) : node.kind.isParameter = false := by
  cases h with
  | int | str | sym | call => rfl
  | word h =>
    simp only [List.mem_cons, List.not_mem_nil, or_false] at h
    rcases h with rfl | rfl | rfl | rfl <;> rfl

/-- a default value has no kind that a parameter has -/
theorem ReadDefault.kind_ne (h : ReadDefault node) {kind : Kind} (hkind : kind.isParameter = true) :
    node.kind ≠ kind := by
  rintro rfl
  exact absurd (h.isParameter.symm.trans hkind) Bool.false_ne_true

theorem nodes_starNode (kind : Kind) (name? : Option String) : (starNode kind name?).nodes = [] := by
  cases name? <;> rfl

theorem Constituent.part {parts : List Node} (hparts : ∀ node ∈ parts, IsParam node)
    (hpattern : IsPattern (parts.map Node.kind)) (hbelow : below ∈ parts) : Constituent enclosing below := by
  refine .param (.plain (hparts below hbelow)) ?_
  intro hforward
  have hkinds := hpattern.patterns below.kind (List.mem_map_of_mem hbelow)
  rw [hforward] at hkinds
  rcases hkinds with h | h | h <;> cases h

/-- **Step.** What is in a node of a list is a node of the list. -/
theorem Constituent.child (h : Constituent enclosing node) (hbelow : below ∈ node.nodes) :
    Constituent enclosing below := by
  have hdefaulted {kind : Kind} {name : String} {default : Node} (hdefault : ReadDefault default)
      (hbelow : below ∈ Node.nodes ⟨kind, [.symbol name, .ofNode default]⟩) : Constituent enclosing below := by
    obtain rfl : below = default := List.mem_singleton.1 hbelow
    exact .default hdefault
  cases h with
  | shadow => cases hbelow
  | default h =>
    rw [h.nodes_eq] at hbelow
    cases hbelow
  | param h _ =>
    cases h with
    | defaulted _ _ hdefault => exact hdefaulted hdefault hbelow
    | plain h =>
      cases h with
      | optarg _ hdefault | kwoptarg _ hdefault => exact hdefaulted hdefault.readDefault hbelow
      | mlhs hparts hpattern =>
        rw [nodes_ofNodes] at hbelow
        exact .part hparts hpattern hbelow
      | restarg | kwrestarg | blockarg =>
        rw [nodes_starNode] at hbelow
        cases hbelow
      | arg | kwarg | kwnilarg | forwardArg => cases hbelow

/-- **Run.** What occurs in a node of a list is a node of the list, by induction on where it stands. -/
theorem Constituent.occurs {tree : Node} (h : Constituent enclosing tree) (hnode : node.Occurs tree) :
    Constituent enclosing node := by
  induction hnode with
  | root => exact h
  | inside hchild _ ih => exact ih (h.child hchild)

/-! ## What is true of the nodes of a list -/

theorem Constituent.forwarding (h : Constituent enclosing node) (hkind : node.kind = .forwardArg) :
    enclosing = .other := by
  cases h with
  | param _ hforward => exact hforward hkind
  | shadow => cases hkind
  | default h => exact absurd hkind (h.kind_ne rfl)

/-- the sole parameter of a block is no part of another parameter -/
theorem Constituent.kind_ne_procarg0 (h : Constituent enclosing node) : node.kind ≠ .procarg0 := by
  cases h with
  | shadow => exact Kind.noConfusion
  | default h => exact h.kind_ne rfl
  | param h _ =>
    cases h with
    | defaulted hkind _ _ => rcases hkind with rfl | rfl <;> exact Kind.noConfusion
    | plain h => cases h <;> exact Kind.noConfusion

theorem Constituent.pattern (h : Constituent enclosing node) (hkind : node.kind = .mlhs) :
    ∃ parts, node = .ofNodes .mlhs parts ∧ IsPattern (parts.map Node.kind) := by
  cases h with
  | shadow => cases hkind
  | default h => exact absurd hkind (h.kind_ne rfl)
  | param h _ =>
    have hplain : IsParam node := h.isParam (by simp [hkind])
    obtain ⟨parts, _, hpattern, rfl⟩ := hplain.eq_pattern hkind
    exact ⟨parts, rfl, hpattern⟩

theorem isName_of_starNode {kind : Kind} {name? : Option String} {name : String}
    (h : .symbol name ∈ (starNode kind name?).children) : name ∈ name? := by
  cases name? with
  | none => cases h
  | some found =>
    obtain rfl : name = found := Child.symbol.inj (List.mem_singleton.1 h)
    rfl

/-- the only symbol among the children of an optional parameter is its name -/
theorem eq_of_defaulted {kind : Kind} {name found : String} {default : Node}
    (h : .symbol found ∈ Node.children ⟨kind, [.symbol name, .ofNode default]⟩) : found = name := by
  rcases List.mem_cons.1 h with h | h
  · exact Child.symbol.inj h
  · cases List.mem_singleton.1 h

theorem Constituent.isName (h : Constituent enclosing node) {name : String} (hname : .symbol name ∈ node.children) :
    IsName name := by
  have hsole {found : String} (h : IsName found) (hname : .symbol name ∈ [Child.symbol found]) : IsName name := by
    rwa [Child.symbol.inj (List.mem_singleton.1 hname)]
  cases h with
  | shadow h => exact hsole h hname
  | default h =>
    cases h with
    | int | str => cases List.mem_singleton.1 hname
    | sym h => exact hsole h hname
    | word => cases hname
    | call h =>
      rcases List.mem_cons.1 hname with hnil | hname
      · cases hnil
      · exact hsole h hname
  | param h _ =>
    cases h with
    | defaulted _ h _ => rwa [eq_of_defaulted hname]
    | plain h =>
      cases h with
      | arg h | kwarg h => exact hsole h hname
      | optarg h _ | kwoptarg h _ => rwa [eq_of_defaulted hname]
      | restarg h | blockarg h => exact h name (isName_of_starNode hname)
      | kwrestarg h => exact (h name (isName_of_starNode hname)).1
      | kwnilarg | forwardArg => cases hname
      | mlhs =>
        obtain ⟨part, _, hpart⟩ := List.mem_map.1 hname
        cases hpart

theorem Constituent.refusal (h : Constituent enclosing node) (hkind : node.kind = .kwrestarg) :
    .symbol "nil" ∉ node.children := by
  cases h with
  | shadow => cases hkind
  | default h => exact absurd hkind (h.kind_ne rfl)
  | param h _ =>
    have hplain : IsParam node := h.isParam (by simp [hkind])
    cases hplain with
    | kwrestarg hnames =>
      intro hnil
      exact (hnames "nil" (isName_of_starNode hnil)).2 rfl
    | _ => cases hkind

theorem Constituent.defaulted (h : Constituent enclosing node) (hkind : node.kind = .optarg ∨ node.kind = .kwoptarg) :
    ∃ name value, node.children = [.symbol name, .ofNode value] ∧ ReadDefault value := by
  cases h with
  | shadow => rcases hkind with hkind | hkind <;> cases hkind
  | default h => rcases hkind with hkind | hkind <;> exact absurd hkind (h.kind_ne rfl)
  | param h _ =>
    cases h with
    | defaulted _ _ hdefault => exact ⟨_, _, rfl, hdefault⟩
    | plain h =>
      cases h with
      | optarg _ hdefault | kwoptarg _ hdefault => exact ⟨_, _, rfl, hdefault.readDefault⟩
      | _ => rcases hkind with hkind | hkind <;> cases hkind

theorem Constituent.decoded (h : Constituent enclosing node) (hkind : node.kind.isParameter = true) :
    ∃ param, Param.ofNode node = .ok param := by
  cases h with
  | shadow => exact ⟨_, rfl⟩
  | default h => exact absurd rfl (h.kind_ne hkind)
  | param h _ =>
    cases h with
    | defaulted hdefaulted _ _ => rcases hdefaulted with rfl | rfl <;> exact ⟨_, rfl⟩
    | plain h =>
      cases h with
      | arg | optarg | kwarg | kwoptarg | kwnilarg | forwardArg => exact ⟨_, rfl⟩
      | restarg => exact ⟨_, (ofNode_star _).1⟩
      | kwrestarg => exact ⟨_, (ofNode_star _).2.1⟩
      | blockarg => exact ⟨_, (ofNode_star _).2.2⟩
      | mlhs _ hpattern => exact ⟨_, ofNode_pattern hpattern.parts_ne_nil⟩

theorem Constituent.permitted (h : Constituent enclosing node) : Permitted enclosing node where
  forwarding := h.forwarding
  pattern hkind := by
    have hmlhs : node.kind = .mlhs := hkind.resolve_right h.kind_ne_procarg0
    rw [hmlhs]
    exact h.pattern hmlhs
  name _ := h.isName
  refusal := h.refusal
  default := h.defaulted
  decoded := h.decoded

end

/-! ## Whole lists -/

theorem occurs_ofNodes {kind : Kind} {nodes : List Node} {node : Node} (h : node.Occurs (.ofNodes kind nodes)) :
    node = .ofNodes kind nodes ∨ ∃ child ∈ nodes, node.Occurs child := by
  cases h with
  | root => exact Or.inl rfl
  | inside hchild h =>
    rw [nodes_ofNodes] at hchild
    exact Or.inr ⟨_, hchild, h⟩

/-- a list or the sole parameter of a block, which holds nothing but nodes -/
theorem permitted_ofNodes {enclosing : Enclosing} {kind : Kind} {nodes : List Node}
    (hkind : kind = .args ∨ kind = .procarg0 ∧ IsPattern (nodes.map Node.kind))
    (hdecoded : ∃ param, Param.ofNode (.ofNodes kind nodes) = .ok param) :
    Permitted enclosing (.ofNodes kind nodes) where
  forwarding h := by rcases hkind with rfl | ⟨rfl, _⟩ <;> cases h
  pattern h := by
    rcases hkind with rfl | ⟨rfl, hpattern⟩
    · rcases h with h | h <;> cases h
    · exact ⟨nodes, rfl, hpattern⟩
  name name hname := by
    obtain ⟨node, _, hnode⟩ := List.mem_map.1 hname
    cases hnode
  refusal _ hnil := by
    obtain ⟨node, _, hnode⟩ := List.mem_map.1 hnil
    cases hnode
  default h := by rcases hkind with rfl | ⟨rfl, _⟩ <;> rcases h with h | h <;> cases h
  decoded _ := hdecoded

theorem constituent_shadow {enclosing : Enclosing} {shadows : List String} (h : ∀ name ∈ shadows, IsName name) :
    ∀ node ∈ shadows.map shadowNode, Constituent enclosing node := by
  rw [List.forall_mem_map]
  exact fun name hname => .shadow (h name hname)

/-- parameters in signature order, with block-locals, are allowed -/
theorem allowed_list {enclosing : Enclosing} {normals : List Node} {shadows : List String}
    (hnormals : ∀ node ∈ normals, ReadParam node) (horder : InOrder enclosing (normals.map Node.kind))
    (hshadows : ∀ name ∈ shadows, IsName name) :
    Allowed enclosing (.ofNodes .args (normals ++ shadows.map shadowNode)) := by
  have hconstituents : ∀ node ∈ normals ++ shadows.map shadowNode, Constituent enclosing node := by
    intro node hnode
    rcases List.mem_append.1 hnode with hnormal | hshadow
    · refine .param (hnormals node hnormal) fun hforward => ?_
      rcases horder.forwarding_allowed with hother | hnone
      · exact hother
      · exact absurd hforward (hnone node.kind (List.mem_map_of_mem hnormal))
    · exact constituent_shadow hshadows node hshadow
  have hdecoded := ofNode_list (fun node hnode => (hnormals node hnode).kind_ne_shadowarg) shadows
  refine ⟨⟨normals, shadows, rfl, Or.inl horder⟩, ?_, ?_⟩
  · intro node hnode hkind
    rcases occurs_ofNodes hnode with rfl | ⟨child, hchild, hbelow⟩
    · cases hkind
    · exact absurd hkind ((hconstituents child hchild).occurs hbelow).kind_ne_procarg0
  · intro node hnode
    rcases occurs_ofNodes hnode with rfl | ⟨child, hchild, hbelow⟩
    · exact permitted_ofNodes (Or.inl rfl) ⟨_, hdecoded⟩
    · exact ((hconstituents child hchild).occurs hbelow).permitted

/-- where a node stands in a block's list of a sole parameter -/
theorem occurs_sole {parts : List Node} {shadows : List String} {node : Node}
    (hparts : ∀ node ∈ parts, IsParam node) (hpattern : IsPattern (parts.map Node.kind))
    (hshadows : ∀ name ∈ shadows, IsName name) (h : node.Occurs (loneList .procarg0 parts shadows)) :
    (node = loneList .procarg0 parts shadows ∨ node = .ofNodes .procarg0 parts) ∨ Constituent .block node := by
  rcases occurs_ofNodes h with rfl | ⟨child, hchild, hbelow⟩
  · exact Or.inl (Or.inl rfl)
  · rcases List.mem_cons.1 hchild with rfl | hshadow
    · rcases occurs_ofNodes hbelow with rfl | ⟨part, hpart, hinside⟩
      · exact Or.inl (Or.inr rfl)
      · exact Or.inr ((Constituent.part hparts hpattern hpart).occurs hinside)
    · exact Or.inr ((constituent_shadow hshadows child hshadow).occurs hbelow)

theorem allowed_sole {parts : List Node} {shadows : List String} (hparts : ∀ node ∈ parts, IsParam node)
    (hpattern : IsPattern (parts.map Node.kind)) (hshadows : ∀ name ∈ shadows, IsName name) :
    Allowed .block (loneList .procarg0 parts shadows) := by
  have hdecoded : ∃ param, Param.ofNode (loneList .procarg0 parts shadows) = .ok param :=
    ⟨_, ofNode_list (List.forall_mem_singleton.2 (show Kind.procarg0 ≠ .shadowarg from Kind.noConfusion)) shadows⟩
  refine ⟨⟨[.ofNodes .procarg0 parts], shadows, rfl, Or.inr ⟨rfl, rfl⟩⟩, ?_, ?_⟩
  · intro node hnode hkind
    rcases occurs_sole hparts hpattern hshadows hnode with (rfl | rfl) | hconstituent
    · cases hkind
    · exact ⟨shadows, rfl⟩
    · exact absurd hkind hconstituent.kind_ne_procarg0
  · intro node hnode
    rcases occurs_sole hparts hpattern hshadows hnode with (rfl | rfl) | hconstituent
    · exact permitted_ofNodes (Or.inl rfl) hdecoded
    · exact permitted_ofNodes (Or.inr ⟨rfl, hpattern⟩) ⟨_, ofNode_sole hpattern.parts_ne_nil⟩
    · exact hconstituent.permitted

/-- **Only allowed signatures are read.** Whatever the text, a list that is read from it inside a construct is allowed
there: its parameters are in signature order, or it has the sole parameter of a block, and all the nodes in it, however
deep, are as they should be. -/
theorem read_allowed {text : String} {enclosing : Enclosing} {list : Node} (h : read text enclosing = .ok list) :
    Allowed enclosing list := by
  cases returned_of_read h with
  | list hnormals horder hshadows => exact allowed_list hnormals horder hshadows
  | sole hblock hparts hpattern hshadows =>
    subst hblock
    exact allowed_sole hparts hpattern hshadows

/-- A pattern that is read with the comma after it. -/
theorem read_allowed_pattern :
    read "(a, b), " .block = .ok (loneList .mlhs pair []) ∧ Allowed .block (loneList .mlhs pair []) := by
  have htext : listText ["(a, b)"] true [] = "(a, b), " := by decide
  have hread := read_comma (Or.inr rfl) itemText_pair (List.forall_mem_nil IsName)
  rw [htext] at hread
  exact ⟨hread, read_allowed hread⟩

end RubySignature.Signature
