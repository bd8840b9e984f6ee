/-
Forwarding in the list of a block or lambda.

Forwarding belongs to method definitions, and a block or lambda refuses a list that has it as a parameter. The parameters
of the list are all that is looked at: forwarding inside a pattern is neither refused nor left out, however deep it stands
(`unparseArgs_literal`). So a pattern of a block can hold the three dots (`unparseArgs_literal_pattern`).

A pattern is rendered as if it stood in no construct at all, so the dots are followed upwards: what a parameter is written
as stands in the text of every pattern around it (`Forwards.dots`).
-/
import RubySignature.Proofs.Signature.Respelling

namespace RubySignature.Signature

open RenderM Rendition

/-- The parameter is forwarding, or has it in its patterns. -/
inductive Forwards : Node → Prop where
  | here {node : Node} (h : node.kind = .forwardArg) : Forwards node
  | inside {node part : Node} (hkind : node.kind ∈ [Kind.mlhs, .procarg0]) (hpart : part ∈ node.nodes)
      (h : Forwards part) : Forwards node

/-! ## Parts of a text -/

theorem infix_intercalate {text : String} {texts : List String} (h : text ∈ texts) :
    text.toList <:+: (", ".intercalate texts).toList := by
  induction texts with
  | nil => cases h
  | cons first later ih =>
    cases later with
    | nil =>
      obtain rfl := List.mem_singleton.1 h
      exact String.intercalate_singleton ▸ List.infix_refl _
    | cons second later =>
      rw [String.intercalate_cons_cons, String.toList_append, String.toList_append]
      rcases List.mem_cons.1 h with rfl | hlater
      · rw [List.append_assoc]
        exact (List.prefix_append _ _).isInfix
      · exact (ih hlater).trans (List.suffix_append _ _).isInfix

theorem infix_listText {text : String} {texts : List String} (h : text ∈ texts) (comma : Bool) (names : List String) :
    text.toList <:+: (listText texts comma names).toList := by
  unfold listText
  rw [String.toList_append]
  exact (infix_intercalate h).trans (List.prefix_append _ _).isInfix

/-- every part of what is rendered part by part has a text -/
theorem exists_text_of_mapM {part : Node → Rendition} {nodes : List Node} {texts : List String}
    (h : nodes.mapM part = .ok texts) {node : Node} (hnode : node ∈ nodes) : ∃ text ∈ texts, part node = .ok text := by
  induction nodes generalizing texts with
  | nil => cases hnode
  | cons first later ih =>
    rw [List.mapM_cons] at h
    obtain ⟨text, hfirst, hrest⟩ := bind_ok_iff.1 h
    obtain ⟨others, hlater, hall⟩ := bind_ok_iff.1 hrest
    obtain rfl : text :: others = texts := Except.ok.inj hall
    rcases List.mem_cons.1 hnode with rfl | hmem
    · exact ⟨text, List.mem_cons_self, hfirst⟩
    · obtain ⟨other, hother, hpart⟩ := ih hlater hmem
      exact ⟨other, List.mem_cons_of_mem _ hother, hpart⟩

/-! ## Forwarding in patterns -/

section

variable {limit levels : Nat} {enclosing : Enclosing} {node : Node} {text : String}

/-- a pattern that is rendered and holds a node holds nodes only -/
theorem eq_ofNodes_of_rendition {part : Node} (hkind : node.kind ∈ [Kind.mlhs, .procarg0]) (hpart : part ∈ node.nodes)
    (h : rendition Host.basic limit (levels + 1) enclosing node = .ok text) : ∃ nodes, node = .ofNodes node.kind nodes := by
  obtain ⟨kind, children⟩ := node
  simp only [List.mem_cons, List.not_mem_nil, or_false] at hkind
  have hparameter : kind.isParameter = true := by
    rcases hkind with rfl | rfl <;> rfl
  cases hdecode : Param.ofNode ⟨kind, children⟩ with
  | error error =>
    rw [rendition_of_undecoded hparameter hdecode] at h
    cases h
  | ok param =>
    have hrow := Param.decodes_of_ofNode hdecode
    rcases hkind with rfl | rfl
    · cases hrow with
      | mlhs hnodes => exact ⟨_, congrArg (Node.mk .mlhs) hnodes⟩
    · cases hrow with
      | soleName name => cases hpart -- a mere name holds no node
      | procarg0 hnodes => exact ⟨_, congrArg (Node.mk .procarg0) hnodes⟩

/-- forwarding that is rendered is three dots -/
theorem eq_dots_of_rendition (hkind : node.kind = .forwardArg)
    (h : rendition Host.basic limit levels enclosing node = .ok text) : text = "..." := by
  obtain ⟨kind, children⟩ := node
  obtain rfl : kind = .forwardArg := hkind
  cases levels with
  | zero => cases h
  | succ levels =>
    cases children with
    | nil =>
      have hdots : rendition Host.basic limit (levels + 1) enclosing (.leaf .forwardArg) = .ok "..." := rfl
      exact Except.ok.inj (h.symm.trans hdots)
    | cons => cases h

/-- **Forwarding that is rendered is written**, in patterns of any depth. -/
theorem Forwards.dots (h : Forwards node) (htext : rendition Host.basic limit levels enclosing node = .ok text) :
    "...".toList <:+: text.toList := by
  induction h generalizing levels enclosing text with
  | here hkind =>
    exact eq_dots_of_rendition hkind htext ▸ List.infix_refl _
  | @inside node part hkind hpart _ ih =>
    cases levels with
    | zero => cases htext
    | succ levels =>
      obtain ⟨nodes, hnode⟩ := eq_ofNodes_of_rendition hkind hpart htext
      rw [hnode, nodes_ofNodes] at hpart
      rw [hnode, rendition_parts hkind (List.ne_nil_of_mem hpart), map_ok_iff] at htext
      obtain ⟨texts, htexts, rfl⟩ := htext
      obtain ⟨inner, hinner, hrendered⟩ := exists_text_of_mapM htexts hpart
      have hjoined := (ih hrendered).trans (infix_intercalate hinner)
      split
      · rw [String.toList_append, String.toList_append]
        exact hjoined.trans ((List.prefix_append _ _).isInfix.trans (List.suffix_append _ _).isInfix)
      · exact hjoined

end

/-! ## Lists of blocks and lambdas -/

/-- the comma does not decide whether a list has a text -/
theorem exists_text_comma {part : Node → Rendition} {list : ParamList} {comma : Bool} (another : Bool)
    (h : ∃ text, list.rendition part comma = .ok text) : ∃ text, list.rendition part another = .ok text := by
  obtain ⟨text, htext⟩ := h
  obtain ⟨texts, locals, hnormal, hshadow, -⟩ := ParamList.rendition_ok htext
  exact ⟨_, ParamList.rendition_of_texts hnormal hshadow⟩

section

variable {nodes : List Node} {enclosing : Enclosing}

/-- a list that is rendered in a block or lambda has no forwarding among its parameters -/
theorem forwardless_of_text (henclosing : enclosing ≠ .other) {text : String}
    (h : unparseArgs (.ofNodes .args nodes) enclosing = .ok text) : ∀ node ∈ nodes, node.kind ≠ .forwardArg := by
  intro node hnode hkind
  rw [unparseArgs_misplaced hnode hkind henclosing] at h
  cases h

/-- without forwarding among its parameters, a list has a text in every construct or in none -/
theorem exists_text_of_forwardless (hnodes : ∀ node ∈ nodes, node.kind ≠ .forwardArg) (another : Enclosing)
    (h : ∃ text, unparseArgs (.ofNodes .args nodes) enclosing = .ok text) :
    ∃ text, unparseArgs (.ofNodes .args nodes) another = .ok text := by
  rw [unparseArgs_ofNodes hnodes] at h ⊢
  exact exists_text_comma _ h

/-- forwarding in the patterns of a list is written in every construct that has a text of the list -/
theorem dots_of_text (hnodes : ∀ node ∈ nodes, node.kind ≠ .forwardArg) {text : String}
    (h : unparseArgs (.ofNodes .args nodes) enclosing = .ok text) {node : Node} (hnode : node ∈ nodes)
    (hforwards : Forwards node) : "...".toList <:+: text.toList := by
  have hnormal : node ∈ (ParamList.partition nodes).normal := by
    refine List.mem_filter.2 ⟨hnode, ?_⟩
    cases hforwards with
    | here hkind => exact absurd hkind (hnodes node hnode)
    | inside hkind _ _ =>
      simp only [List.mem_cons, List.not_mem_nil, or_false] at hkind
      rcases hkind with hkind | hkind <;> simp [hkind]
  rw [unparseArgs_ofNodes hnodes] at h
  obtain ⟨texts, locals, htexts, -, rfl⟩ := ParamList.rendition_ok h
  obtain ⟨inner, hinner, hrendered⟩ := exists_text_of_mapM htexts hnormal
  exact (hforwards.dots hrendered).trans (infix_listText hinner _ _)

end

/-- **What a block or lambda refuses of forwarding.** It renders exactly the lists that a method definition renders and
that have no forwarding among their parameters. What stands in their patterns is not looked at, so wherever there is
forwarding in the patterns of a list that is rendered, the text has the three dots. -/
theorem unparseArgs_literal {list : Node} (hkind : list.kind = .args) {enclosing : Enclosing}
    (henclosing : enclosing ≠ .other) :
    ((∃ text, unparseArgs list enclosing = .ok text) ↔
      (∃ text, unparseArgs list .other = .ok text) ∧ ∀ node ∈ list.nodes, node.kind ≠ .forwardArg) ∧
    ∀ text, unparseArgs list enclosing = .ok text → ∀ node ∈ list.nodes, Forwards node →
      "...".toList <:+: text.toList := by
  rcases exists_nodes_or_error hkind with ⟨nodes, rfl⟩ | ⟨error, hundecoded⟩
  · rw [nodes_ofNodes]
    refine ⟨⟨?_, ?_⟩, ?_⟩
    · rintro ⟨text, htext⟩
      have hnodes := forwardless_of_text henclosing htext
      exact ⟨exists_text_of_forwardless hnodes .other ⟨text, htext⟩, hnodes⟩
    · rintro ⟨htext, hnodes⟩
      exact exists_text_of_forwardless hnodes enclosing htext
    · intro text htext node hnode hforwards
      exact dots_of_text (forwardless_of_text henclosing htext) htext hnode hforwards
  · -- a list with a child that is no node has no text anywhere
    have herror := unparseArgs_of_undecoded hkind hundecoded
    rw [herror, herror]
    simp

def forwardingPattern : Node := .ofNodes .mlhs [.leaf .forwardArg]

/-- A lambda writes the forwarding in a pattern, a block refuses it next to the pattern. -/
theorem unparseArgs_literal_pattern :
    (∃ text, unparseArgs (.ofNodes .args [forwardingPattern]) .lambda = .ok text ∧ "...".toList <:+: text.toList) ∧
      ¬ ∃ text, unparseArgs (.ofNodes .args [forwardingPattern, .leaf .forwardArg]) .block = .ok text := by
  have hforwards : Forwards forwardingPattern := .inside (by decide) List.mem_cons_self (.here rfl)
  have hother : unparseArgs (.ofNodes .args [forwardingPattern]) .other = .ok "(...)" := rfl
  obtain ⟨hrenders, hdots⟩ := unparseArgs_literal (show (Node.ofNodes .args [forwardingPattern]).kind = .args from rfl)
    (show Enclosing.lambda ≠ .other by decide)
  obtain ⟨hrefuses, -⟩ := unparseArgs_literal
    (show (Node.ofNodes .args [forwardingPattern, .leaf .forwardArg]).kind = .args from rfl)
    (show Enclosing.block ≠ .other by decide)
  obtain ⟨text, htext⟩ := hrenders.2 ⟨⟨_, hother⟩, by decide⟩
  refine ⟨⟨text, htext, hdots text htext _ List.mem_cons_self hforwards⟩, ?_⟩
  intro hblock
  exact (hrefuses.1 hblock).2 (.leaf .forwardArg) (List.mem_cons_of_mem _ List.mem_cons_self) rfl

/-- A block renders a list that has forwarding in a pattern. -/
theorem forwarding_slips_through :
    ¬ ∀ (list : Node) (enclosing : Enclosing) (text : String), list.kind = .args → enclosing ≠ .other →
      unparseArgs list enclosing = .ok text → ∀ node ∈ list.nodes, ¬ Forwards node := by
  intro hnoForwarding
  have htext : unparseArgs (.ofNodes .args [forwardingPattern]) .block = .ok "(...)" := rfl
  have hforwards : Forwards forwardingPattern := .inside (by decide) List.mem_cons_self (.here rfl)
  exact hnoForwarding _ .block _ rfl (by decide) htext _ List.mem_cons_self hforwards

end RubySignature.Signature
