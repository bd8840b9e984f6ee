/-
Writing a parameter list and reading it back.

A list is written as its parameters with commas between them, perhaps one more comma, and its block-locals after a
semicolon. `read_unparseArgs` says that a canonical list is written at all, and that its text is read back as
the list itself, in every construct: the extra comma of a block and the parentheses of its sole parameter are what keeps
a lone name, a lone pattern and a plain parameter apart.
-/
import RubySignature.Proofs.Render.Lists
import RubySignature.Proofs.Signature.Lists
import RubySignature.Proofs.Signature.Rendering
import RubySignature.Render.Unparse

namespace RubySignature.Signature

open RenderM

/-! ## Writing a list -/

theorem renders_shadow (levels : Nat) (name : String) : Renders (levels + 1) (shadowNode name) name := by
  have hparam : Param.ofNode (shadowNode name) = .ok (.shadowarg name) := rfl
  exact renders_of_writes fun _ => writes_param rfl hparam (Writes.write name)

theorem partition_list {normals : List Node} (h : ∀ node ∈ normals, node.kind ≠ .shadowarg) (names : List String) :
    ParamList.partition (normals ++ names.map shadowNode) = ⟨normals, names.map shadowNode⟩ := by
  have hshadow : ∀ node ∈ names.map shadowNode, node.kind = .shadowarg := by
    intro node hnode
    obtain ⟨name, _, rfl⟩ := List.mem_map.1 hnode
    rfl
  have hnormal : normals.filter (·.kind ≠ .shadowarg) = normals :=
    List.filter_eq_self.2 fun node hnode => decide_eq_true (h node hnode)
  have hnone : (names.map shadowNode).filter (·.kind ≠ .shadowarg) = [] :=
    List.filter_eq_nil_iff.2 fun node hnode => by simp [hshadow node hnode]
  have hall : (names.map shadowNode).filter (·.kind = .shadowarg) = names.map shadowNode :=
    List.filter_eq_self.2 fun node hnode => decide_eq_true (hshadow node hnode)
  have hempty : normals.filter (·.kind = .shadowarg) = [] :=
    List.filter_eq_nil_iff.2 fun node hnode => by simp [h node hnode]
  rw [ParamList.partition, List.filter_append, List.filter_append, hnormal, hnone, hall, hempty, List.append_nil,
    List.nil_append]

theorem ofNode_list {normals : List Node} (h : ∀ node ∈ normals, node.kind ≠ .shadowarg) (names : List String) :
    Param.ofNode (.ofNodes .args (normals ++ names.map shadowNode)) = .ok (.args ⟨normals, names.map shadowNode⟩) := by
  rw [ofNode_args, partition_list h]

/-- A list is written part by part. -/
theorem rendersIn_list {enclosing : Enclosing} {levels : Nat} {normals : List Node} {texts : List String}
    (hnormals : List.Forall₂ (Renders (levels + 1)) normals texts) (hkinds : ∀ node ∈ normals, node.kind ≠ .shadowarg)
    (hforward : enclosing = .other ∨ ∀ node ∈ normals, node.kind ≠ .forwardArg) (names : List String) :
    RendersIn enclosing (levels + 2) (.ofNodes .args (normals ++ names.map shadowNode))
      (listText texts (needsComma ⟨normals, names.map shadowNode⟩ enclosing) names) := by
  rintro emitter rfl
  have hpartition := partition_list hkinds names
  have hshadows : List.Forall₂ (Renders (levels + 1)) (names.map shadowNode) names :=
    List.forall₂_map_left_iff.2 (List.forall₂_same.2 fun name _ => renders_shadow levels name)
  have hallowed : emitter.enclosing = .other ∨
      ∀ node ∈ (ParamList.partition (normals ++ names.map shadowNode)).normal, node.kind ≠ .forwardArg := by
    rw [hpartition]
    exact hforward
  have hlist : rendition Host.basic emitter.limit (levels + 2) emitter.enclosing
      (.ofNodes .args (normals ++ names.map shadowNode)) = _ := rendition_list hallowed
  rw [hpartition, ParamList.rendition_of_texts (mapM_of_renders hnormals) (mapM_of_renders hshadows)] at hlist
  exact descend_of_text emitter hlist

/-! ## Reading the text -/

namespace ListText

/-- the layout that a list is written in -/
def ofPieces (pieces : List (Item × String)) (comma : Bool) (names : List String) : ListText where
  parts := spaced [] pieces
  comma := comma
  gap := if comma then [' '] else []
  names := spaced [' '] (names.map fun name => (name, name))

theorem chars_ofPieces (pieces : List (Item × String)) (comma : Bool) (names : List String) :
    (ofPieces pieces comma names).chars = (listText (pieces.map Prod.snd) comma names).toList := by
  have hparts : joined (spaced [] pieces) = (", ".intercalate (pieces.map Prod.snd)).toList := by
    by_cases hne : pieces = []
    · subst hne
      rfl
    · rw [joined_spaced hne, List.nil_append]
  have hnames : shadowChars (spaced [' '] (names.map fun name => (name, name))) =
      (if names.isEmpty then "" else "; " ++ ", ".intercalate names).toList := by
    cases names with
    | nil => rfl
    | cons name later =>
      have hne : (name :: later).map (fun name => (name, name)) ≠ [] := List.cons_ne_nil _ _
      have hsnd : ((name :: later).map fun name => (name, name)).map Prod.snd = name :: later := by
        rw [List.map_map]
        exact List.map_id _
      change ';' :: joined (spaced [' '] ((name :: later).map fun name => (name, name))) = _
      rw [joined_spaced hne, hsnd, List.isEmpty_cons, if_neg Bool.false_ne_true, String.toList_append]
      rfl
  unfold chars ofPieces listText
  rw [String.toList_append, String.toList_append, ← hparts, ← hnames]
  cases comma <;> rfl

end ListText

/-- The text of a list is read as the list. -/
theorem read_listText {enclosing : Enclosing} {pieces : List (Item × String)} {comma : Bool} {names : List String}
    (hspelt : ∀ piece ∈ pieces, ItemText piece.1 piece.2.toList)
    (hordered : Slot.leading.run? ((pieces.map Prod.fst).map Item.kind) ≠ none)
    (hforward : enclosing = .other ∨ ∀ piece ∈ pieces, piece.1.kind ≠ .forwardArg)
    (hextra : comma = true → enclosing = .block ∧ pieces ≠ [] ∧
      Slot.leading.run? ((pieces.map Prod.fst).map Item.kind) = some .leading)
    (hnames : ∀ name ∈ names, IsName name) :
    read (listText (pieces.map Prod.snd) comma names) enclosing =
      .ok (.ofNodes .args
        (Normals.nodes ⟨pieces.map Prod.fst, .leading, comma, []⟩ enclosing ++ names.map shadowNode)) := by
  have hblanks {before : List Char} (h : before = [] ∨ before = [' ']) : Blanks before := by
    rcases h with rfl | rfl
    · exact blanks_nil
    · exact blanks_space
  have hvalues : values (spaced [' '] (names.map fun name => (name, name))) = names := by
    rw [values_spaced, List.map_map]
    exact List.map_id _
  have hvalid : (ListText.ofPieces pieces comma names).Valid enclosing := by
    refine ⟨?_, ?_, ?_, ?_, ?_, ?_, ?_, ?_⟩
    · apply forall_mem_spaced
      intro _ _ _ hbefore
      exact ⟨hblanks hbefore, blanks_nil⟩
    · apply forall_mem_spaced
      intro piece hpiece _ _
      exact hspelt piece hpiece
    · rw [ListText.ofPieces, values_spaced]
      exact hordered
    · rcases hforward with hother | hkinds
      · exact Or.inl hother
      · right
        apply forall_mem_spaced
        intro piece hpiece _ _
        exact hkinds piece hpiece
    · cases comma
      · exact blanks_nil
      · exact blanks_space
    · intro htrue
      obtain ⟨hblock, hne, hleading⟩ := hextra htrue
      refine ⟨hblock, ?_, ?_⟩
      · intro hnil
        exact hne (List.map_eq_nil_iff.1 (values_spaced.symm.trans (congrArg values hnil)))
      · rw [ListText.ofPieces, values_spaced]
        exact hleading
    · apply forall_mem_spaced
      intro _ _ _ hbefore
      exact ⟨hblanks (Or.inr (hbefore.elim id id)), blanks_nil⟩
    · apply forall_mem_spaced
      intro piece hpiece _ _
      obtain ⟨name, hname, rfl⟩ := List.mem_map.1 hpiece
      exact ⟨rfl, hnames name hname⟩
  have hread := ListText.readList_chars hvalid
  rw [ListText.chars_ofPieces, ListText.toNode, ListText.ofPieces, values_spaced, hvalues] at hread
  rw [read, hread]
  rfl

/-! ## Canonical lists -/

/-- where no parameter stands alone in a block, the items stand for the nodes of the list -/
theorem nodes_eq_map {items : List Item} {slot : Slot} {comma : Bool} {rest : List Char} {enclosing : Enclosing}
    (h : enclosing = .block → comma = false → ∀ item, items = [item] → item.toSole = item.toNode) :
    Normals.nodes ⟨items, slot, comma, rest⟩ enclosing = items.map Item.toNode := by
  unfold Normals.nodes
  dsimp only
  split
  · rename_i item
    split
    · rename_i hsole
      rw [h hsole.1 hsole.2 item rfl]
      rfl
    · rfl
  · rfl

theorem IsParam.kind_ne_shadowarg {node : Node} (h : IsParam node) : node.kind ≠ .shadowarg := by
  cases h <;> exact Kind.noConfusion

/-- a parameter that is neither a name nor a pattern stays what it is alone in a block -/
theorem toSole_eq_toNode {item : Item} (harg : item.toNode.kind ≠ .arg) (hmlhs : item.toNode.kind ≠ .mlhs) :
    item.toSole = item.toNode := by
  cases item with
  | bare name => exact absurd rfl harg
  | group nodes => exact absurd rfl hmlhs
  | node single => rfl

section

variable {levels : Nat} {normals : List Node} {pieces : List (Item × String)} (shadows : List Node)
  (enclosing : Enclosing)

/-- only a lone name has the extra comma -/
theorem Pieces.of_needsComma (h : Pieces levels normals pieces)
    (hcomma : needsComma ⟨normals, shadows⟩ enclosing = true) :
    enclosing = .block ∧ pieces ≠ [] ∧
      Slot.leading.run? ((pieces.map Prod.fst).map Item.kind) = some .leading := by
  obtain ⟨hblock, harg⟩ := needsComma_iff.1 hcomma
  have hkinds := h.kinds_eq
  rw [harg] at hkinds
  refine ⟨hblock, ?_, ?_⟩
  · rintro rfl
    cases hkinds
  · rw [hkinds]
    rfl

/-- A list without a lone pattern is read as its nodes, since a lone name has the comma. -/
theorem Pieces.nodes_of_lone {enclosing : Enclosing} (h : Pieces levels normals pieces)
    (hlone : enclosing = .block → normals.map Node.kind ≠ [.mlhs]) :
    Normals.nodes ⟨pieces.map Prod.fst, .leading, needsComma ⟨normals, shadows⟩ enclosing, []⟩ enclosing = normals := by
  have hitems := h.nodes_eq
  rw [nodes_eq_map ?_, hitems]
  intro hblock hcomma item hitem
  rw [hitem, List.map_singleton] at hitems
  apply toSole_eq_toNode
  · intro harg
    have hneeds : needsComma ⟨normals, shadows⟩ enclosing = true :=
      needsComma_iff.2 ⟨hblock, by rw [← hitems, ← harg]; rfl⟩
    exact absurd (hcomma.symm.trans hneeds) Bool.false_ne_true
  · intro hmlhs
    exact hlone hblock (by rw [← hitems, ← hmlhs]; rfl)

end

/-- Ordinary parameters in order are written and read back. -/
theorem read_list {enclosing : Enclosing} {normals : List Node} {shadows : List String}
    (hnormals : ∀ node ∈ normals, IsParam node) (horder : InOrder enclosing (normals.map Node.kind))
    (hlone : enclosing = .block → normals.map Node.kind ≠ [.mlhs]) (hshadows : ∀ name ∈ shadows, IsName name)
    (hheight : (Node.ofNodes .args (normals ++ shadows.map shadowNode)).height ≤ defaultLimit) :
    ∃ text, unparseArgs (.ofNodes .args (normals ++ shadows.map shadowNode)) enclosing = .ok text ∧
      read text enclosing = .ok (.ofNodes .args (normals ++ shadows.map shadowNode)) := by
  have hheights := Node.height_ofNodes_le.1 (show _ ≤ 255 + 1 from hheight)
  have hwritten : ∀ node ∈ normals, ∃ item text, Written 255 node item text := by
    intro node hnode
    exact (hnormals node hnode).written (hheights node (List.mem_append_left _ hnode))
  obtain ⟨pieces, hpieces⟩ := exists_pieces hwritten
  have hkinds := hpieces.kinds_eq
  have hshadowless : ∀ node ∈ normals, node.kind ≠ .shadowarg := by
    intro node hnode
    exact (hnormals node hnode).kind_ne_shadowarg
  have hforward : enclosing = .other ∨ ∀ node ∈ normals, node.kind ≠ .forwardArg := by
    rcases horder.forwarding_allowed with h | h
    · exact Or.inl h
    · rw [List.forall_mem_map] at h
      exact Or.inr h
  have hrenders := rendersIn_list hpieces.renders hshadowless hforward shadows
  have hordered : Slot.leading.run? ((pieces.map Prod.fst).map Item.kind) ≠ none := by
    rw [hkinds]
    exact horder.run?_ne_none
  have hitems : enclosing = .other ∨ ∀ piece ∈ pieces, piece.1.kind ≠ .forwardArg := by
    rcases horder.forwarding_allowed with h | h
    · exact Or.inl h
    · rw [← hkinds, List.forall_mem_map, List.forall_mem_map] at h
      exact Or.inr h
  have hextra := hpieces.of_needsComma (shadows.map shadowNode) enclosing
  have hread := read_listText hpieces.spelt hordered hitems hextra hshadows
  rw [hpieces.nodes_of_lone _ hlone] at hread
  exact ⟨_, unparseArgs_of_renders rfl hrenders, hread⟩

/-! ## The sole parameter of a block -/

theorem ofNode_sole {parts : List Node} (hne : parts ≠ []) :
    Param.ofNode (.ofNodes .procarg0 parts) = .ok (.procarg0 (.patterns parts)) :=
  Param.ofNode_of_decodes (.procarg0 rfl hne)

theorem IsParam.eq_arg {node : Node} (h : IsParam node) (hkind : node.kind = .arg) :
    ∃ name, IsName name ∧ node = ⟨.arg, [.symbol name]⟩ := by
  cases h with
  | arg hname => exact ⟨_, hname, rfl⟩
  | _ => cases hkind

/-- Without parentheses the sole parameter is a name. -/
theorem eq_arg_of_not_parentheses {parts : List Node} (hparts : ∀ node ∈ parts, IsParam node)
    (hpattern : IsPattern (parts.map Node.kind)) (h : needsParentheses parts = false) :
    ∃ name, IsName name ∧ parts = [⟨.arg, [.symbol name]⟩] := by
  obtain ⟨hlength, hplain⟩ := Bool.or_eq_false_iff.1 h
  obtain ⟨part, later, rfl⟩ := List.exists_cons_of_ne_nil hpattern.parts_ne_nil
  have hlater : later = [] := by
    have hshort : later.length + 1 ≤ 1 := Nat.le_of_not_lt (of_decide_eq_false hlength)
    exact List.eq_nil_of_length_eq_zero (Nat.le_zero.1 (Nat.le_of_succ_le_succ hshort))
  subst hlater
  have hpart := hplain
  rw [List.any_cons, List.any_nil, Bool.or_false, Bool.or_eq_false_iff] at hpart
  have harg : part.kind = .arg := by
    rcases hpattern.patterns part.kind List.mem_cons_self with hkind | hkind | hkind
    · exact hkind
    · exact absurd hkind (of_decide_eq_false hpart.2)
    · exact absurd hkind (of_decide_eq_false hpart.1)
  obtain ⟨name, hname, rfl⟩ := (hparts part List.mem_cons_self).eq_arg harg
  exact ⟨name, hname, rfl⟩

/-- A sole parameter that needs parentheses is written as its parts in them. -/
theorem Pieces.renders_sole {levels : Nat} {parts : List Node} {pieces : List (Item × String)}
    (h : Pieces levels parts pieces) (hparens : needsParentheses parts = true) (hne : parts ≠ []) :
    Renders (levels + 1) (.ofNodes .procarg0 parts) ("(" ++ (", ".intercalate (pieces.map Prod.snd) ++ ")")) := by
  refine renders_of_writes fun _ => writes_param rfl (ofNode_sole hne) ?_
  rw [renderParam, renderSole, if_pos hparens]
  exact Writes.parentheses h.writes

/-- A sole parameter that is a name is written as the name. -/
theorem renders_soleName (levels : Nat) (name : String) :
    Renders (levels + 2) (.ofNodes .procarg0 [⟨.arg, [.symbol name]⟩]) name := by
  have hrenders : Renders (levels + 1) ⟨.arg, [.symbol name]⟩ name :=
    renders_of_writes fun _ => writes_param rfl rfl (Writes.write name)
  have hwrites := Writes.delimited (.cons (Writes.visit hrenders) .nil)
  rw [String.intercalate_singleton] at hwrites
  exact renders_of_writes fun _ => writes_param rfl (ofNode_sole (List.cons_ne_nil _ _)) hwrites

theorem written_sole {levels : Nat} {parts : List Node} (hparts : ∀ node ∈ parts, IsParam node)
    (hpattern : IsPattern (parts.map Node.kind)) (hheights : ∀ node ∈ parts, node.height ≤ levels) :
    ∃ item text, Renders (levels + 1) (.ofNodes .procarg0 parts) text ∧ ItemText item text.toList ∧
      item.toSole = .ofNodes .procarg0 parts ∧ (item.kind = .arg ∨ item.kind = .mlhs) := by
  by_cases hparens : needsParentheses parts = true
  · obtain ⟨pieces, hpieces⟩ := exists_pieces fun node hnode => (hparts node hnode).written (hheights node hnode)
    exact ⟨.group parts, _, hpieces.renders_sole hparens hpattern.parts_ne_nil, written_group hpieces hpattern, rfl,
      Or.inr rfl⟩
  · obtain ⟨name, hname, rfl⟩ := eq_arg_of_not_parentheses hparts hpattern (eq_false_of_ne_true hparens)
    obtain ⟨below, rfl⟩ := Node.exists_levels (hheights _ List.mem_cons_self)
    exact ⟨.bare name, name, renders_soleName below name, .flat (.bare hname), rfl, Or.inl rfl⟩

theorem run?_required {kind : Kind} (h : IsRequired kind) : Slot.leading.run? [kind] = some .leading := by
  rcases h with rfl | rfl <;> rfl

theorem forwardless_required {item : Item} (h : IsRequired item.kind) (text : String) :
    ∀ piece ∈ [(item, text)], piece.1.kind ≠ .forwardArg := by
  rw [List.forall_mem_singleton]
  rcases h with h | h <;> rw [h] <;> exact Kind.noConfusion

/-- A parameter that stands alone is written with its own text. -/
theorem unparseArgs_alone {node : Node} {text : String} (hkind : node.kind ∉ [Kind.shadowarg, .forwardArg])
    (hrenders : Renders (254 + 1) node text) (enclosing : Enclosing) (shadows : List String) :
    unparseArgs (.ofNodes .args (node :: shadows.map shadowNode)) enclosing =
      .ok (listText [text] (needsComma ⟨[node], shadows.map shadowNode⟩ enclosing) shadows) := by
  simp only [List.mem_cons, List.not_mem_nil, or_false, not_or] at hkind
  obtain ⟨hshadowarg, hforwarding⟩ := hkind
  have hlist : RendersIn enclosing defaultLimit (.ofNodes .args ([node] ++ shadows.map shadowNode))
      (listText [text] (needsComma ⟨[node], shadows.map shadowNode⟩ enclosing) shadows) :=
    rendersIn_list (.cons hrenders .nil) (List.forall_mem_singleton.2 hshadowarg)
      (Or.inr (List.forall_mem_singleton.2 hforwarding)) shadows
  exact unparseArgs_of_renders rfl hlist

/-- A parameter that stands alone in a block, and is no plain name, is written without the extra comma. -/
theorem unparseArgs_lone {node : Node} {text : String} (hkind : node.kind ∉ [Kind.arg, .shadowarg, .forwardArg])
    (hrenders : Renders (254 + 1) node text) (shadows : List String) :
    unparseArgs (.ofNodes .args (node :: shadows.map shadowNode)) .block = .ok (listText [text] false shadows) := by
  obtain ⟨harg, hothers⟩ := not_or.1 (mt List.mem_cons.2 hkind)
  have hcomma : needsComma ⟨[node], shadows.map shadowNode⟩ .block = false := by
    apply eq_false_of_ne_true
    intro hneeds
    obtain ⟨_, hkinds⟩ := needsComma_iff.1 hneeds
    exact harg (List.cons.inj hkinds).1
  rw [unparseArgs_alone hothers hrenders .block shadows, hcomma]

/-- A parameter that stands alone in a block without the extra comma is read as the sole one. -/
theorem read_lone {item : Item} {text : String} {shadows : List String} (hitem : IsRequired item.kind)
    (hspelt : ItemText item text.toList) (hshadows : ∀ name ∈ shadows, IsName name) :
    read (listText [text] false shadows) .block = .ok (.ofNodes .args (item.toSole :: shadows.map shadowNode)) := by
  have hspelt : ∀ piece ∈ [(item, text)], ItemText piece.1 piece.2.toList := List.forall_mem_singleton.2 hspelt
  have hordered : Slot.leading.run? [item.kind] ≠ none := run?_required hitem ▸ Option.some_ne_none _
  have hforward : Enclosing.block = .other ∨ ∀ piece ∈ [(item, text)], piece.1.kind ≠ .forwardArg :=
    Or.inr (forwardless_required hitem text)
  have hread := read_listText hspelt hordered hforward (fun htrue => absurd htrue Bool.false_ne_true) hshadows
  exact hread

/-- A sole parameter is written and read back. -/
theorem read_sole {parts : List Node} {shadows : List String} (hparts : ∀ node ∈ parts, IsParam node)
    (hpattern : IsPattern (parts.map Node.kind)) (hshadows : ∀ name ∈ shadows, IsName name)
    (hheight : (Node.ofNodes .args (.ofNodes .procarg0 parts :: shadows.map shadowNode)).height ≤ defaultLimit) :
    ∃ text, unparseArgs (.ofNodes .args (.ofNodes .procarg0 parts :: shadows.map shadowNode)) .block = .ok text ∧
      read text .block = .ok (.ofNodes .args (.ofNodes .procarg0 parts :: shadows.map shadowNode)) := by
  have hheights := Node.height_ofNodes_le.1 (show _ ≤ 255 + 1 from hheight)
  obtain ⟨item, text, hrenders, hspelt, hsole, hkind⟩ := written_sole hparts hpattern
    (Node.height_ofNodes_le.1 (show _ ≤ 254 + 1 from hheights _ List.mem_cons_self))
  have hread := read_lone hkind hspelt hshadows
  rw [hsole] at hread
  exact ⟨_, unparseArgs_lone (show Kind.procarg0 ∉ _ by decide) hrenders shadows, hread⟩

/-- **Canonical lists are read back as they were.** A canonical list within the limit of levels is written, and reading
the text in the same construct gives the list. -/
theorem read_unparseArgs {node : Node} {enclosing : Enclosing} (h : Canonical enclosing node)
    (hheight : node.height ≤ defaultLimit) :
    ∃ text, unparseArgs node enclosing = .ok text ∧ read text enclosing = .ok node := by
  cases h with
  | list hnormals horder hlone hshadows => exact read_list hnormals horder hlone hshadows hheight
  | sole hblock hparts hpattern hshadows =>
    subst hblock
    exact read_sole hparts hpattern hshadows hheight

/-- a name, a pattern and a default value -/
def destructuring : List Node :=
  [⟨.arg, [.symbol "a"]⟩, .ofNodes .mlhs [⟨.arg, [.symbol "b"]⟩, starNode .restarg none],
    ⟨.optarg, [.symbol "c", .ofNode ⟨.int, [.int (-7)]⟩]⟩]

/-- A pattern, a default value and a block-local come through in a block. -/
theorem read_unparseArgs_destructuring :
    Canonical .block (.ofNodes .args (destructuring ++ ["d"].map shadowNode)) ∧
      (Node.ofNodes .args (destructuring ++ ["d"].map shadowNode)).height ≤ defaultLimit ∧
      ∃ text, unparseArgs (.ofNodes .args (destructuring ++ ["d"].map shadowNode)) .block = .ok text ∧
        read text .block = .ok (.ofNodes .args (destructuring ++ ["d"].map shadowNode)) := by
  have hparts : ∀ part ∈ [⟨.arg, [.symbol "b"]⟩, starNode .restarg none], IsParam part := by
    rw [List.forall_mem_cons, List.forall_mem_singleton]
    exact ⟨.arg (by decide), .restarg (by decide)⟩
  have hnormals : ∀ normal ∈ destructuring, IsParam normal := by
    unfold destructuring
    rw [List.forall_mem_cons, List.forall_mem_cons, List.forall_mem_singleton]
    exact ⟨.arg (by decide), .mlhs hparts ⟨by decide, by decide, by decide⟩, .optarg (by decide) (.int (-7))⟩
  have horder : InOrder .block ([.arg, .mlhs] ++ ([.optarg] ++ ([] ++ ([] ++ (([] ++ []) ++ []))))) :=
    .sections (by decide) (by decide) (Or.inl rfl) (by decide) (.accepted (by decide) (Or.inl rfl)) (Or.inl rfl)
  have hcanonical : Canonical .block (.ofNodes .args (destructuring ++ ["d"].map shadowNode)) :=
    .list hnormals horder (by decide) (by decide)
  have hheight : (Node.ofNodes .args (destructuring ++ ["d"].map shadowNode)).height ≤ defaultLimit := by decide
  exact ⟨hcanonical, hheight, read_unparseArgs hcanonical hheight⟩

end RubySignature.Signature
