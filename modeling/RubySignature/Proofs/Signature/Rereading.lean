/-
Reading a text, writing what was read, and reading that.

The text that a list is written as need not be the one it was read from, but it is read as the same list
(`reread`), unless there are default values, whose strings and symbols have spellings that only reading knows. One list
does not come back: between the bars of a block, the comma after a lone pattern makes it a parameter of a list, and
writing leaves that comma out, so the pattern comes back as the block's sole parameter. `reread_pattern` is such a list.
-/
import RubySignature.Proofs.Signature.Returned
import RubySignature.Proofs.Signature.RoundTrip

namespace RubySignature.Signature

/-- a list with a single ordinary parameter that holds the parts: a pattern, or the sole parameter of a block -/
def loneList (kind : Kind) (parts : List Node) (shadows : List String) : Node :=
  .ofNodes .args (.ofNodes kind parts :: shadows.map shadowNode)

/-- a parameter that is a pattern -/
theorem IsParam.eq_pattern {node : Node} (h : IsParam node) (hkind : node.kind = .mlhs) :
    ∃ parts, (∀ part ∈ parts, IsParam part) ∧ IsPattern (parts.map Node.kind) ∧ node = .ofNodes .mlhs parts := by
  cases h with
  | mlhs hparts hpattern => exact ⟨_, hparts, hpattern, rfl⟩
  | _ => cases hkind

theorem ReadParam.kind_ne_shadowarg {node : Node} (h : ReadParam node) : node.kind ≠ .shadowarg := by
  cases h with
  | plain h => exact h.kind_ne_shadowarg
  | defaulted hkind _ _ => rcases hkind with rfl | rfl <;> exact Kind.noConfusion

/-- the ordinary parameters and the block-locals of a list are told apart -/
theorem append_shadows_inj {normals others : List Node} {shadows names : List String}
    (hnormals : ∀ node ∈ normals, node.kind ≠ .shadowarg) (hothers : ∀ node ∈ others, node.kind ≠ .shadowarg)
    (h : normals ++ shadows.map shadowNode = others ++ names.map shadowNode) : normals = others ∧ shadows = names := by
  have hlists := (ofNode_list hnormals shadows).symm.trans (h ▸ ofNode_list hothers names)
  obtain ⟨hnormal, hshadow⟩ := ParamList.mk.inj (Param.args.inj (Except.ok.inj hlists))
  have hinj : Function.Injective shadowNode := by
    intro name other hnode
    exact Child.symbol.inj (List.cons.inj (Node.mk.inj hnode).2).1
  exact ⟨hnormal, List.map_injective_iff.2 hinj hshadow⟩

theorem eq_loneList {normals : List Node} {shadows names : List String} {kind : Kind} {parts : List Node}
    (hkind : kind ≠ .shadowarg) (hnormals : ∀ node ∈ normals, node.kind ≠ .shadowarg)
    (h : Node.ofNodes .args (normals ++ shadows.map shadowNode) = loneList kind parts names) :
    normals = [.ofNodes kind parts] ∧ shadows = names :=
  append_shadows_inj hnormals (List.forall_mem_singleton.2 hkind) (ofNodes_inj h)

/-- A lone parameter with the comma after it is read as a parameter of a list. -/
theorem read_comma {item : Item} {text : String} {shadows : List String} (hitem : IsRequired item.kind)
    (hspelt : ItemText item text.toList) (hshadows : ∀ name ∈ shadows, IsName name) :
    read (listText [text] true shadows) .block = .ok (.ofNodes .args (item.toNode :: shadows.map shadowNode)) := by
  have hspelt : ∀ piece ∈ [(item, text)], ItemText piece.1 piece.2.toList := List.forall_mem_singleton.2 hspelt
  have hleading : Slot.leading.run? [item.kind] = some .leading := run?_required hitem
  have hextra : true = true → Enclosing.block = .block ∧ [(item, text)] ≠ [] ∧
      Slot.leading.run? [item.kind] = some .leading := fun _ => ⟨rfl, List.cons_ne_nil _ _, hleading⟩
  have hordered : Slot.leading.run? [item.kind] ≠ none := hleading ▸ Option.some_ne_none _
  have hread := read_listText hspelt hordered (Or.inr (forwardless_required hitem text)) hextra hshadows
  exact hread

/-- A lone pattern is written without a comma, so that it is read as the sole parameter. -/
theorem read_lonePattern {parts : List Node} {shadows : List String} (hparts : ∀ node ∈ parts, IsParam node)
    (hpattern : IsPattern (parts.map Node.kind)) (hshadows : ∀ name ∈ shadows, IsName name)
    (hheight : (loneList .mlhs parts shadows).height ≤ defaultLimit) :
    ∃ written, unparseArgs (loneList .mlhs parts shadows) .block = .ok written ∧
      read written .block = .ok (loneList .procarg0 parts shadows) := by
  have hheights := Node.height_ofNodes_le.1 (show _ ≤ 255 + 1 from hheight)
  have hpart := Node.height_ofNodes_le.1 (show _ ≤ 254 + 1 from hheights _ List.mem_cons_self)
  obtain ⟨text, hwritten⟩ :=
    written_pattern (fun node hnode => (hparts node hnode).written (hpart node hnode)) hpattern
  exact ⟨_, unparseArgs_lone (show Kind.mlhs ∉ _ by decide) hwritten.renders shadows,
    read_lone (Or.inr rfl) hwritten.spelt hshadows⟩

/-- **A list that was read and written is read again as the same list**, if it has no default values. The exception is a
block's list of a lone pattern, which is read again as the same list with the pattern as the sole parameter. -/
theorem reread {text : String} {enclosing : Enclosing} {list : Node} (h : read text enclosing = .ok list)
    (hplain : ∀ node ∈ list.nodes, node.kind ≠ .optarg ∧ node.kind ≠ .kwoptarg)
    (hheight : list.height ≤ defaultLimit) :
    ∃ written, unparseArgs list enclosing = .ok written ∧
      ((enclosing = .block → ∀ parts shadows, list ≠ loneList .mlhs parts shadows) →
        read written enclosing = .ok list) ∧
      ∀ parts shadows, enclosing = .block → list = loneList .mlhs parts shadows →
        read written enclosing = .ok (loneList .procarg0 parts shadows) := by
  cases returned_of_read h with
  | sole hblock hparts hpattern hshadows =>
    subst hblock
    obtain ⟨written, hwritten, hread⟩ := read_sole hparts hpattern hshadows hheight
    refine ⟨written, hwritten, fun _ => hread, ?_⟩
    intro parts shadows _ hlone
    cases (List.cons.inj (ofNodes_inj hlone)).1
  | @list normals shadows hnormals horder hshadows =>
    rw [nodes_ofNodes] at hplain
    have hparams : ∀ node ∈ normals, IsParam node := fun node hnode =>
      (hnormals node hnode).isParam (hplain node (List.mem_append_left _ hnode))
    have hordinary : ∀ node ∈ normals, node.kind ≠ .shadowarg := fun node hnode =>
      (hparams node hnode).kind_ne_shadowarg
    by_cases hlone : enclosing = .block ∧ normals.map Node.kind = [.mlhs]
    · -- the pattern comes back as the sole parameter
      obtain ⟨rfl, hkinds⟩ := hlone
      obtain ⟨node, rfl, hkind⟩ := List.map_eq_singleton_iff.1 hkinds
      obtain ⟨parts, hparts, hpattern, rfl⟩ := (hparams node List.mem_cons_self).eq_pattern hkind
      obtain ⟨written, hwritten, hread⟩ := read_lonePattern hparts hpattern hshadows hheight
      refine ⟨written, hwritten, fun hother => absurd rfl (hother rfl parts shadows), ?_⟩
      intro others names _ hsame
      obtain ⟨hnodes, rfl⟩ := eq_loneList Kind.noConfusion hordinary hsame
      obtain rfl := ofNodes_inj (List.cons.inj hnodes).1
      exact hread
    · have hmany : enclosing = .block → normals.map Node.kind ≠ [.mlhs] := fun hblock hkinds => hlone ⟨hblock, hkinds⟩
      obtain ⟨written, hwritten, hread⟩ := read_list hparams horder hmany hshadows hheight
      refine ⟨written, hwritten, fun _ => hread, ?_⟩
      intro parts names hblock hsame
      obtain ⟨rfl, -⟩ := eq_loneList Kind.noConfusion hordinary hsame
      exact absurd ⟨hblock, rfl⟩ hlone

/-- A lone name with the comma after it is read as a plain parameter, and comes back as one. -/
theorem reread_name :
    read "a, " .block = .ok (.ofNodes .args [⟨.arg, [.symbol "a"]⟩]) ∧
      ∃ written, unparseArgs (.ofNodes .args [⟨.arg, [.symbol "a"]⟩]) .block = .ok written ∧
        read written .block = .ok (.ofNodes .args [⟨.arg, [.symbol "a"]⟩]) := by
  have htext : listText ["a"] true [] = "a, " := by decide
  have hspelt : ItemText (.bare "a") "a".toList := .flat (.bare (by decide))
  have hread := read_comma (Or.inl rfl) hspelt (List.forall_mem_nil IsName)
  rw [htext] at hread
  obtain ⟨written, hwritten, hsame, _⟩ := reread hread (by decide) (by decide)
  refine ⟨hread, written, hwritten, hsame ?_⟩
  intro _ parts shadows hlone
  cases (List.cons.inj (ofNodes_inj hlone)).1

def pair : List Node := [⟨.arg, [.symbol "a"]⟩, ⟨.arg, [.symbol "b"]⟩]

def pairText : List (Spelt Item) := [⟨.bare "a", [], ['a'], []⟩, ⟨.bare "b", [' '], ['b'], []⟩]

theorem itemText_pair : ItemText (.group pair) "(a, b)".toList := by
  have hparts : ∀ part ∈ pairText, part.Spaced ∧ ItemText part.value part.text := by
    unfold pairText
    rw [List.forall_mem_cons, List.forall_mem_singleton]
    exact ⟨⟨⟨blanks_nil, blanks_nil⟩, .flat (.bare (by decide))⟩,
      ⟨⟨blanks_space, blanks_nil⟩, .flat (.bare (by decide))⟩⟩
  exact .group (fun part hpart => (hparts part hpart).1) (fun part hpart => (hparts part hpart).2)
    ⟨by decide, by decide, by decide⟩

/-- A lone pattern with the comma after it is read as a parameter of a list, and does not come back as one. -/
theorem reread_pattern :
    ∃ list, read "(a, b), " .block = .ok list ∧
      (∀ node ∈ list.nodes, node.kind ≠ .optarg ∧ node.kind ≠ .kwoptarg) ∧ list.height ≤ defaultLimit ∧
      ¬ ∃ written, unparseArgs list .block = .ok written ∧ read written .block = .ok list := by
  have htext : listText ["(a, b)"] true [] = "(a, b), " := by decide
  have hread := read_comma (Or.inr rfl) itemText_pair (List.forall_mem_nil IsName)
  have hnodes : ∀ node ∈ pair, IsParam node :=
    List.forall_mem_cons.2 ⟨.arg (by decide), List.forall_mem_singleton.2 (.arg (by decide))⟩
  have hheight : (loneList .mlhs pair []).height ≤ defaultLimit := by decide
  rw [htext] at hread
  refine ⟨loneList .mlhs pair [], hread, by decide, hheight, ?_⟩
  rintro ⟨written, hwritten, hsame⟩
  obtain ⟨other, hother, hsole⟩ :=
    read_lonePattern hnodes ⟨by decide, by decide, by decide⟩ (List.forall_mem_nil IsName) hheight
  obtain rfl := Except.ok.inj (hwritten.symm.trans hother)
  have hlists := Except.ok.inj (hsame.symm.trans hsole)
  cases (Node.mk.inj (List.cons.inj (ofNodes_inj hlists)).1).1

end RubySignature.Signature
