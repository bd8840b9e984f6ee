/-
What keeps lone parameters of a block apart is never superfluous.

Alone between the bars of a block, a plain name is written with a comma after it, and the patterns of a sole parameter in
parentheses. `disambiguators_needed` says that neither can be left out: the shorter text is not read as the list.

What it is read as instead is known in both cases. The name without its comma is the block's sole parameter
(`read_commaless`). The patterns without their parentheses are the parameters of the list, so that there are several of
them, or one which is a splat, or one which is a pattern and becomes the sole parameter itself, with one pair of
parentheses less than there was (`nodes_ne_sole`).
-/
import RubySignature.Proofs.Signature.Rereading

namespace RubySignature.Signature

theorem listText_inj {text other : String} {comma : Bool} {names : List String}
    (h : listText [text] comma names = listText [other] comma names) : text = other := by
  unfold listText at h
  rwa [String.append_left_inj, String.intercalate_singleton, String.intercalate_singleton] at h

/-! ## The comma after a name -/

/-- A name that stands alone in a block is written with a comma after it. -/
theorem unparseArgs_name (name : String) (shadows : List String) :
    unparseArgs (.ofNodes .args (⟨.arg, [.symbol name]⟩ :: shadows.map shadowNode)) .block =
      .ok (listText [name] true shadows) := by
  have hrenders : Renders (254 + 1) ⟨.arg, [.symbol name]⟩ name :=
    renders_of_writes fun _ => writes_param rfl rfl (RenderM.Writes.write name)
  have hcomma : needsComma ⟨[⟨.arg, [.symbol name]⟩], shadows.map shadowNode⟩ .block = true :=
    needsComma_iff.2 ⟨rfl, rfl⟩
  rw [unparseArgs_alone (by simp) hrenders .block shadows, hcomma]

/-- Without the comma, the name is read as the sole parameter of the block. -/
theorem read_commaless {name : String} {shadows : List String} (hname : IsName name)
    (hshadows : ∀ name ∈ shadows, IsName name) :
    read (listText [name] false shadows) .block = .ok (loneList .procarg0 [⟨.arg, [.symbol name]⟩] shadows) := by
  have hspelt : ItemText (.bare name) name.toList := .flat (.bare hname)
  exact read_lone (Or.inl rfl) hspelt hshadows

/-! ## The parentheses of a sole parameter -/

/-- Nodes that need parentheses as a sole parameter do not become that parameter by standing alone in a list. -/
theorem nodes_ne_sole {items : List Item} (h : needsParentheses (items.map Item.toNode) = true) :
    Normals.nodes ⟨items, .leading, false, []⟩ .block ≠ [.ofNodes .procarg0 (items.map Item.toNode)] := by
  intro hsame
  match items with
  | [] => cases hsame
  | first :: second :: later =>
    have hlength := congrArg List.length hsame
    simp [Normals.nodes] at hlength
  | [item] =>
    have hsole : item.toSole = .ofNodes .procarg0 [item.toNode] := (List.cons.inj hsame).1
    cases item with
    | bare name => exact absurd h Bool.false_ne_true
    | group parts =>
      -- the pattern would have to be among its own parts
      have hparts : parts = [.ofNodes .mlhs parts] := ofNodes_inj hsole
      have hmem : Node.ofNodes .mlhs parts ∈ (Node.ofNodes .mlhs parts).nodes := by
        rw [nodes_ofNodes]
        exact (congrArg (Node.ofNodes .mlhs parts ∈ ·) hparts).mpr List.mem_cons_self
      exact absurd (Node.height_lt_of_mem hmem) (Nat.lt_irrefl _)
    | node single =>
      have hkind : single.kind = .procarg0 := congrArg Node.kind hsole
      simp [needsParentheses, Item.toNode, hkind] at h

section

variable {levels : Nat} {parts : List Node} {pieces : List (Item × String)} {shadows : List String}

/-- Without the parentheses, the patterns of a sole parameter are read as the parameters of the list. -/
theorem Pieces.read_bare (h : Pieces levels parts pieces) (hpattern : IsPattern (parts.map Node.kind))
    (hshadows : ∀ name ∈ shadows, IsName name) :
    read (listText (pieces.map Prod.snd) false shadows) .block =
      .ok (.ofNodes .args
        (Normals.nodes ⟨pieces.map Prod.fst, .leading, false, []⟩ .block ++ shadows.map shadowNode)) := by
  have hkinds := h.kinds_eq
  have hordered : Slot.leading.run? ((pieces.map Prod.fst).map Item.kind) ≠ none := by
    obtain ⟨last, hlast, _⟩ := Slot.passes_pattern hpattern
    simp [hkinds, hlast]
  have hforward : ∀ piece ∈ pieces, piece.1.kind ≠ .forwardArg := by
    intro piece hpiece hforward
    have hmem : piece.1.kind ∈ parts.map Node.kind :=
      hkinds ▸ List.mem_map_of_mem (List.mem_map_of_mem hpiece)
    have hallowed := hpattern.patterns _ hmem
    simp [hforward] at hallowed
  exact read_listText h.spelt hordered (Or.inr hforward) (by simp) hshadows

theorem Pieces.read_bare_ne (h : Pieces levels parts pieces) (hpattern : IsPattern (parts.map Node.kind))
    (hshadows : ∀ name ∈ shadows, IsName name) (hparens : needsParentheses parts = true) :
    read (listText (pieces.map Prod.snd) false shadows) .block ≠ .ok (loneList .procarg0 parts shadows) := by
  intro hread
  have hlists := ofNodes_inj (Except.ok.inj ((h.read_bare hpattern hshadows).symm.trans hread))
  rw [← List.singleton_append] at hlists
  have hnodes := List.append_cancel_right hlists
  obtain rfl := h.nodes_eq
  exact nodes_ne_sole hparens hnodes

end

/-- **Parentheses around a sole parameter cannot be left out**, wherever they are written. -/
theorem read_unparenthesized_ne {parts : List Node} {shadows : List String} {inner : String}
    (hparts : ∀ node ∈ parts, IsParam node) (hpattern : IsPattern (parts.map Node.kind))
    (hshadows : ∀ name ∈ shadows, IsName name) (hheight : (loneList .procarg0 parts shadows).height ≤ defaultLimit)
    (hwritten : unparseArgs (loneList .procarg0 parts shadows) .block =
      .ok (listText ["(" ++ (inner ++ ")")] false shadows)) :
    read (listText [inner] false shadows) .block ≠ .ok (loneList .procarg0 parts shadows) := by
  have hkind : Kind.procarg0 ∉ [Kind.arg, .shadowarg, .forwardArg] := by decide
  have hheights := Node.height_ofNodes_le.1 (show _ ≤ 255 + 1 from hheight)
  have hpart := Node.height_ofNodes_le.1 (show _ ≤ 254 + 1 from hheights _ List.mem_cons_self)
  by_cases hparens : needsParentheses parts = true
  · obtain ⟨pieces, hpieces⟩ := exists_pieces fun node hnode => (hparts node hnode).written (hpart node hnode)
    have htext := unparseArgs_lone hkind (hpieces.renders_sole hparens hpattern.parts_ne_nil) shadows
    have hsame := listText_inj (Except.ok.inj (hwritten.symm.trans htext))
    obtain rfl : inner = ", ".intercalate (pieces.map Prod.snd) := by
      rwa [String.append_right_inj, String.append_left_inj] at hsame
    have hne := hpieces.read_bare_ne hpattern hshadows hparens
    unfold listText at hne ⊢
    rwa [String.intercalate_singleton]
  · -- a name is written without parentheses
    obtain ⟨name, hname, rfl⟩ := eq_arg_of_not_parentheses hparts hpattern (eq_false_of_ne_true hparens)
    have htext := unparseArgs_lone hkind (renders_soleName 253 name) shadows
    have hsame := listText_inj (Except.ok.inj (hwritten.symm.trans htext))
    have hparen : '(' ∈ name.toList := by simp [← hsame]
    exact absurd (hname.2 _ hparen) (by decide)

/-! ## Canonical lists -/

/-- what stands alone in a block's list is a parameter or the sole parameter -/
theorem Canonical.lone {list node : Node} {shadows : List String} (h : Canonical .block list)
    (hlist : list = .ofNodes .args (node :: shadows.map shadowNode)) (hkind : node.kind ≠ .shadowarg) :
    (∀ name ∈ shadows, IsName name) ∧
      (IsParam node ∨ ∃ parts, node = .ofNodes .procarg0 parts ∧ (∀ part ∈ parts, IsParam part) ∧
        IsPattern (parts.map Node.kind)) := by
  have hordinary : ∀ other ∈ [node], other.kind ≠ .shadowarg := List.forall_mem_singleton.2 hkind
  cases h with
  | @list normals names hnormals _ _ hnames =>
    obtain ⟨rfl, rfl⟩ := append_shadows_inj (fun other hother => (hnormals other hother).kind_ne_shadowarg) hordinary
      (ofNodes_inj hlist)
    exact ⟨hnames, Or.inl (hnormals node List.mem_cons_self)⟩
  | @sole parts names _ hparts hpattern hnames =>
    have hsole : ∀ other ∈ [Node.ofNodes .procarg0 parts], other.kind ≠ .shadowarg :=
      List.forall_mem_singleton.2 Kind.noConfusion
    obtain ⟨hnode, rfl⟩ := append_shadows_inj hsole hordinary (ofNodes_inj hlist)
    exact ⟨hnames, Or.inr ⟨parts, (List.cons.inj hnode).1.symm, hparts, hpattern⟩⟩

theorem Canonical.written {list : Node} {enclosing : Enclosing} (h : Canonical enclosing list)
    (hheight : list.height ≤ defaultLimit) : ∃ text, unparseArgs list enclosing = .ok text := by
  cases h with
  | list hnormals horder hlone hshadows =>
    obtain ⟨text, htext, -⟩ := read_list hnormals horder hlone hshadows hheight
    exact ⟨text, htext⟩
  | sole hblock hparts hpattern hshadows =>
    obtain ⟨text, htext, -⟩ := read_sole hparts hpattern hshadows hheight
    exact ⟨text, hblock ▸ htext⟩

/-- **No disambiguating token of a block is superfluous.** A canonical list is written. In its text, a lone name has a
comma after it, and without the comma the text is read as another list or not at all. The same holds of the parentheses
of a sole parameter, if it is written in parentheses. -/
theorem disambiguators_needed {list : Node} (h : Canonical .block list) (hheight : list.height ≤ defaultLimit) :
    ∃ text, unparseArgs list .block = .ok text ∧
      (∀ name shadows, list = .ofNodes .args (⟨.arg, [.symbol name]⟩ :: shadows.map shadowNode) →
        text = listText [name] true shadows ∧ read (listText [name] false shadows) .block ≠ .ok list) ∧
      ∀ parts shadows inner, list = loneList .procarg0 parts shadows →
        text = listText ["(" ++ (inner ++ ")")] false shadows →
          read (listText [inner] false shadows) .block ≠ .ok list := by
  obtain ⟨text, htext⟩ := h.written hheight
  refine ⟨text, htext, ?_, ?_⟩
  · rintro name shadows rfl
    obtain ⟨hshadows, hparam⟩ := h.lone rfl Kind.noConfusion
    have hname : IsName name := by
      rcases hparam with hparam | ⟨parts, hsole, -⟩
      · cases hparam with
        | arg hname => exact hname
      · cases (Node.mk.inj hsole).1
    refine ⟨Except.ok.inj (htext.symm.trans (unparseArgs_name name shadows)), ?_⟩
    intro hread
    have hsole := Except.ok.inj (hread.symm.trans (read_commaless hname hshadows))
    cases (Node.mk.inj (List.cons.inj (ofNodes_inj hsole)).1).1
  · rintro parts shadows inner rfl rfl
    obtain ⟨hshadows, hparam⟩ := h.lone rfl Kind.noConfusion
    rcases hparam with hparam | ⟨others, hsole, hparts, hpattern⟩
    · cases hparam
    · obtain rfl := ofNodes_inj hsole
      exact read_unparenthesized_ne hparts hpattern hshadows hheight htext

/-- A block-local does not save the comma after a name, nor the parentheses around two names. -/
theorem disambiguators_needed_shadowed :
    (Canonical .block (.ofNodes .args [⟨.arg, [.symbol "a"]⟩, shadowNode "c"]) ∧
      unparseArgs (.ofNodes .args [⟨.arg, [.symbol "a"]⟩, shadowNode "c"]) .block = .ok "a, ; c" ∧
      read "a; c" .block ≠ .ok (.ofNodes .args [⟨.arg, [.symbol "a"]⟩, shadowNode "c"])) ∧
    Canonical .block (loneList .procarg0 pair ["c"]) ∧
      unparseArgs (loneList .procarg0 pair ["c"]) .block = .ok "(a, b); c" ∧
      read "a, b; c" .block ≠ .ok (loneList .procarg0 pair ["c"]) := by
  have hshadows : ∀ name ∈ ["c"], IsName name := by decide
  constructor
  · have hnormals : ∀ node ∈ [(⟨.arg, [.symbol "a"]⟩ : Node)], IsParam node :=
      List.forall_mem_singleton.2 (.arg (by decide))
    have horder : InOrder .block ([Kind.arg] ++ ([] ++ ([] ++ ([] ++ (([] ++ []) ++ []))))) :=
      .sections (by decide) (by decide) (Or.inl rfl) (by decide) (.accepted (by decide) (Or.inl rfl)) (Or.inl rfl)
    have hcanonical : Canonical .block (.ofNodes .args ([⟨.arg, [.symbol "a"]⟩] ++ ["c"].map shadowNode)) :=
      .list hnormals horder (by decide) hshadows
    obtain ⟨text, hwritten, hcomma, -⟩ := disambiguators_needed hcanonical (by decide)
    obtain ⟨rfl, hneeded⟩ := hcomma "a" ["c"] rfl
    exact ⟨hcanonical, hwritten, hneeded⟩
  · have hparts : ∀ node ∈ pair, IsParam node :=
      List.forall_mem_cons.2 ⟨.arg (by decide), List.forall_mem_singleton.2 (.arg (by decide))⟩
    have hcanonical : Canonical .block (loneList .procarg0 pair ["c"]) :=
      .sole rfl hparts ⟨by decide, by decide, by decide⟩ hshadows
    have htext : unparseArgs (loneList .procarg0 pair ["c"]) .block = .ok "(a, b); c" := rfl
    obtain ⟨text, hwritten, -, hparens⟩ := disambiguators_needed hcanonical (by decide)
    obtain rfl := Except.ok.inj (htext.symm.trans hwritten)
    exact ⟨hcanonical, htext, hparens pair ["c"] "a, b" rfl (by decide)⟩

end RubySignature.Signature
