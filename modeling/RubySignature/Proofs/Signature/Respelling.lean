/-
Parameter lists that are spelt in other ways.

A parameter list has several trees. Its block-locals may stand anywhere among the other parameters, a missing name may
be a nil, the sole parameter of a block may be a mere name, and a name as a default value may be a variable or a call.
Whatever is another spelling of a canonical list is written as the same text, and that is read as the canonical list
(`read_respelt`). So writing a tree and reading it back makes it canonical, and doing it again changes nothing.

The induction is on how a parameter is respelt (`Respelt.same_text`), and it runs from the canonical tree to the other
one: a mere name takes up a level less than a parameter with the name, so near the limit the other tree may have a text
where the canonical one has none.
-/
import RubySignature.Proofs.Signature.RoundTrip

namespace RubySignature.Signature

open RenderM Rendition

/-! ## Other spellings -/

/-- The first parameter is another spelling of the second. Parts come in pairs, the other spelling first. -/
inductive Respelt : Node → Node → Prop where
  | same (node : Node) : Respelt node node
  | nameless {kind : Kind} (h : kind ∈ [Kind.restarg, .kwrestarg, .blockarg]) :
      Respelt ⟨kind, [.nil]⟩ (starNode kind none)
  | default {kind : Kind} (h : kind ∈ [Kind.optarg, .kwoptarg]) (name value : String) :
      Respelt ⟨kind, [.symbol name, .ofNode ⟨.lvar, [.symbol value]⟩]⟩
        ⟨kind, [.symbol name, .ofNode ⟨.send, [.nil, .symbol value]⟩]⟩
  | sole (name : String) : Respelt ⟨.procarg0, [.symbol name]⟩ (.ofNodes .procarg0 [⟨.arg, [.symbol name]⟩])
  | parts {kind : Kind} (h : kind ∈ [Kind.mlhs, .procarg0]) {pairs : List (Node × Node)}
      (hpairs : ∀ pair ∈ pairs, Respelt pair.1 pair.2) :
      Respelt (.ofNodes kind (pairs.map Prod.fst)) (.ofNodes kind (pairs.map Prod.snd))

/-- The first list is another spelling of the second: its ordinary parameters are other spellings of those, one by one,
and its block-locals are the same in the same order, wherever they stand. -/
inductive RespeltList : Node → Node → Prop where
  | mk {variants nodes shadows : List Node} {pairs : List (Node × Node)}
      (hpairs : ∀ pair ∈ pairs, Respelt pair.1 pair.2)
      (hvariants : ParamList.partition variants = ⟨pairs.map Prod.fst, shadows⟩)
      (hnodes : ParamList.partition nodes = ⟨pairs.map Prod.snd, shadows⟩) :
      RespeltList (.ofNodes .args variants) (.ofNodes .args nodes)

theorem Respelt.kind_eq {variant node : Node} (h : Respelt variant node) : variant.kind = node.kind := by
  cases h <;> rfl

section

variable {pairs : List (Node × Node)}

theorem kinds_eq_of_respelt (h : ∀ pair ∈ pairs, Respelt pair.1 pair.2) :
    (pairs.map Prod.fst).map Node.kind = (pairs.map Prod.snd).map Node.kind := by
  rw [List.map_map, List.map_map]
  exact List.map_congr_left fun pair hpair => (h pair hpair).kind_eq

theorem needsParentheses_of_respelt (h : ∀ pair ∈ pairs, Respelt pair.1 pair.2) :
    needsParentheses (pairs.map Prod.fst) = needsParentheses (pairs.map Prod.snd) := by
  have hkinds (nodes : List Node) : needsParentheses nodes =
      (decide (1 < (nodes.map Node.kind).length) ||
        (nodes.map Node.kind).any fun kind => kind = .restarg || kind = .mlhs) := by
    rw [List.length_map, List.any_map]
    rfl
  rw [hkinds, hkinds, kinds_eq_of_respelt h]

/-- What has a text in the one spelling has it in the other, so the lists of texts are the same. -/
theorem mapM_respelt {part : Node → Rendition} {texts : List String}
    (h : ∀ pair ∈ pairs, ∀ text, part pair.2 = .ok text → part pair.1 = .ok text)
    (htexts : (pairs.map Prod.snd).mapM part = .ok texts) : (pairs.map Prod.fst).mapM part = .ok texts := by
  induction pairs generalizing texts with
  | nil => exact htexts
  | cons pair later ih =>
    obtain ⟨hpair, hlater⟩ := List.forall_mem_cons.1 h
    rw [List.map_cons, List.mapM_cons] at htexts ⊢
    obtain ⟨text, htext, hothers⟩ := bind_ok_iff.1 htexts
    obtain ⟨others, hrest, hall⟩ := bind_ok_iff.1 hothers
    rw [hpair text htext, ih hlater hrest]
    exact hall

end

/-! ## Renditions -/

section

variable {limit levels : Nat} {enclosing : Enclosing}

/-- The text of a pattern or a sole parameter is that of its parts. -/
theorem rendition_parts {kind : Kind} (h : kind ∈ [Kind.mlhs, .procarg0]) {nodes : List Node} (hne : nodes ≠ []) :
    rendition Host.basic limit (levels + 1) enclosing (.ofNodes kind nodes) =
      (nodes.mapM (rendition Host.basic limit levels .other)).map fun texts =>
        if kind = .mlhs ∨ needsParentheses nodes = true then "(" ++ (", ".intercalate texts ++ ")")
        else ", ".intercalate texts := by
  let visits := rendition Host.basic limit levels
  have hparts : HasParts visits .other (delimited nodes) ((nodes.map (visits .other)).intersperse (.ok ", ")) :=
    .delimited nodes
  have hplain : (delimited nodes).run.rendition visits .other =
      (nodes.mapM (visits .other)).map fun texts => ", ".intercalate texts := hparts.trans (inTurn_commas nodes _)
  have hparentheses : (parentheses (delimited nodes)).run.rendition visits .other =
      (nodes.mapM (visits .other)).map fun texts => "(" ++ (", ".intercalate texts ++ ")") := by
    have hall := HasParts.parentheses hparts
    unfold HasParts at hall
    rw [hall, inTurn_cons, inTurn_append, inTurn_commas]
    cases nodes.mapM (visits .other) <;> rfl
  simp only [List.mem_cons, List.not_mem_nil, or_false] at h
  rcases h with rfl | rfl
  · rw [rendition, renderNode_param rfl (ofNode_pattern hne), renderParam]
    simp only [true_or, if_true]
    exact hparentheses
  · rw [rendition, renderNode_param rfl (ofNode_sole hne), renderParam, renderSole]
    by_cases hneeds : needsParentheses nodes = true
    · simp only [hneeds, or_true, if_true]
      exact hparentheses
    · simp only [hneeds, or_false, reduceCtorEq, if_false]
      exact hplain

/-- a variable is written as a call of its name is -/
theorem rendition_variable (value : String) :
    rendition Host.basic limit levels enclosing ⟨.lvar, [.symbol value]⟩ =
      rendition Host.basic limit levels enclosing ⟨.send, [.nil, .symbol value]⟩ := by
  cases levels <;> rfl

/-- a parameter with a default value is written by what the default value is written as -/
theorem rendition_default_congr {kind : Kind} (h : kind ∈ [Kind.optarg, .kwoptarg]) (name : String)
    {default another : Node}
    (hdefault : rendition Host.basic limit levels .other default = rendition Host.basic limit levels .other another) :
    rendition Host.basic limit (levels + 1) enclosing ⟨kind, [.symbol name, .ofNode default]⟩ =
      rendition Host.basic limit (levels + 1) enclosing ⟨kind, [.symbol name, .ofNode another]⟩ := by
  have hvisit (separator : String) (default : Node) :
      (writeAll [name, separator] >>= fun _ => visit default).run.rendition (rendition Host.basic limit levels) .other =
        andThen (.ok name) (andThen (.ok separator)
          (andThen (rendition Host.basic limit levels .other default) (.ok ""))) := rfl
  simp only [List.mem_cons, List.not_mem_nil, or_false] at h
  rcases h with rfl | rfl
  · exact (hvisit " = " default).trans (hdefault ▸ (hvisit " = " another).symm)
  · exact (hvisit ": " default).trans (hdefault ▸ (hvisit ": " another).symm)

/-- a mere name is written as a parameter with the name is, where there is a level for the parameter -/
theorem rendition_sole (name : String) {text : String}
    (h : rendition Host.basic limit levels enclosing (.ofNodes .procarg0 [⟨.arg, [.symbol name]⟩]) = .ok text) :
    rendition Host.basic limit levels enclosing ⟨.procarg0, [.symbol name]⟩ = .ok text := by
  cases levels with
  | zero => exact h
  | succ levels =>
    have hname : rendition Host.basic limit (levels + 1) enclosing ⟨.procarg0, [.symbol name]⟩ = .ok name :=
      congrArg Except.ok String.append_empty
    rw [rendition_parts (by decide) (List.cons_ne_nil _ _), map_ok_iff] at h
    obtain ⟨texts, htexts, rfl⟩ := h
    rw [List.mapM_cons, List.mapM_nil] at htexts
    obtain ⟨text, harg, hrest⟩ := bind_ok_iff.1 htexts
    obtain rfl : [text] = texts := Except.ok.inj hrest
    obtain rfl : name = text := Child.symbol.inj (List.cons.inj (Node.mk.inj (eq_arg_of_rendition rfl harg)).2).1
    rw [hname, String.intercalate_singleton]
    rfl

end

/-- **A parameter that is respelt has the same text.** -/
theorem Respelt.same_text {variant node : Node} (h : Respelt variant node) {limit levels : Nat} {enclosing : Enclosing}
    {text : String} (htext : rendition Host.basic limit levels enclosing node = .ok text) :
    rendition Host.basic limit levels enclosing variant = .ok text := by
  induction h generalizing levels enclosing text with
  | same node => exact htext
  | @nameless kind h =>
    simp only [List.mem_cons, List.not_mem_nil, or_false] at h
    rcases h with rfl | rfl | rfl <;> cases levels <;> exact htext
  | default h name value =>
    cases levels with
    | zero => exact htext
    | succ levels => rwa [rendition_default_congr h name (rendition_variable value)]
  | sole name => exact rendition_sole name htext
  | @parts kind h pairs hpairs ih =>
    cases levels with
    | zero => exact htext
    | succ levels =>
      by_cases hnil : pairs = []
      · subst hnil
        exact htext
      · have hne (side : Node × Node → Node) : pairs.map side ≠ [] := fun h => hnil (List.map_eq_nil_iff.1 h)
        rw [rendition_parts h (hne _), map_ok_iff] at htext
        obtain ⟨texts, htexts, rfl⟩ := htext
        rw [rendition_parts h (hne _), mapM_respelt (fun pair hpair _ => ih pair hpair) htexts,
          needsParentheses_of_respelt hpairs]
        rfl

/-- a list that has a text holds forwarding only where that is allowed -/
theorem forwarding_allowed_of_text {limit levels : Nat} {enclosing : Enclosing} {nodes : List Node} {text : String}
    (h : rendition Host.basic limit (levels + 1) enclosing (.ofNodes .args nodes) = .ok text) :
    enclosing = .other ∨ ∀ node ∈ (ParamList.partition nodes).normal, node.kind ≠ .forwardArg := by
  by_cases hother : enclosing = .other
  · exact Or.inl hother
  · right
    intro node hnode hkind
    rw [rendition_list_misplaced hother (List.mem_of_mem_filter hnode) hkind] at h
    cases h

/-- **A list that is respelt has the same text**, in every construct. -/
theorem RespeltList.same_text {variant list : Node} (h : RespeltList variant list) {limit levels : Nat}
    {enclosing : Enclosing} {text : String} (htext : rendition Host.basic limit levels enclosing list = .ok text) :
    rendition Host.basic limit levels enclosing variant = .ok text := by
  cases levels with
  | zero => cases htext
  | succ levels =>
    cases h with
    | @mk variants nodes shadows pairs hpairs hvariants hnodes =>
      have hforward : enclosing = .other ∨ ∀ node ∈ (ParamList.partition variants).normal, node.kind ≠ .forwardArg := by
        refine (forwarding_allowed_of_text htext).imp_right ?_
        intro hallowed node hnode hkind
        rw [hvariants] at hnode
        obtain ⟨pair, hpair, rfl⟩ := List.mem_map.1 hnode
        have hsecond : pair.2 ∈ (ParamList.partition nodes).normal := hnodes ▸ List.mem_map_of_mem hpair
        exact hallowed pair.2 hsecond ((hpairs pair hpair).kind_eq.symm.trans hkind)
      have hcomma : needsComma ⟨pairs.map Prod.fst, shadows⟩ enclosing =
          needsComma ⟨pairs.map Prod.snd, shadows⟩ enclosing := by
        rw [Bool.eq_iff_iff, needsComma_iff, needsComma_iff, kinds_eq_of_respelt hpairs]
      rw [rendition_list (forwarding_allowed_of_text htext), hnodes] at htext
      obtain ⟨texts, locals, hnormal, hshadow, rfl⟩ := ParamList.rendition_ok htext
      have hvariant := mapM_respelt (fun pair hpair _ => (hpairs pair hpair).same_text) hnormal
      rw [rendition_list hforward, hvariants, hcomma]
      exact ParamList.rendition_of_texts hvariant hshadow

/-- **All trees of a list come to the same.** Take a canonical list within the limit of levels, and any tree that is
another spelling of it. Both have the same text, and it is read as the canonical list. So the text of the tree that is
read is the same text again. -/
theorem read_respelt {enclosing : Enclosing} {list variant : Node} (h : Canonical enclosing list)
    (hheight : list.height ≤ defaultLimit) (hvariant : RespeltList variant list) :
    ∃ text, unparseArgs variant enclosing = .ok text ∧ unparseArgs list enclosing = .ok text ∧
      read text enclosing = .ok list := by
  have hread : ∃ text, unparseArgs list enclosing = .ok text ∧ read text enclosing = .ok list := by
    cases h with
    | list hnormals horder hlone hshadows => exact read_list hnormals horder hlone hshadows hheight
    | sole hblock hparts hpattern hshadows =>
      subst hblock
      exact read_sole hparts hpattern hshadows hheight
  obtain ⟨text, hlist, hread⟩ := hread
  refine ⟨text, ?_, hlist, hread⟩
  cases hvariant with
  | mk hpairs hvariants hnodes =>
    rw [unparseArgs_rendition rfl] at hlist ⊢
    exact (RespeltList.mk hpairs hvariants hnodes).same_text hlist

/-- a pattern, a default value and a block parameter: another spelling, and the canonical one -/
def assorted : List (Node × Node) :=
  [(.ofNodes .mlhs [⟨.arg, [.symbol "a"]⟩, ⟨.restarg, [.nil]⟩],
      .ofNodes .mlhs [⟨.arg, [.symbol "a"]⟩, starNode .restarg none]),
    (⟨.optarg, [.symbol "b", .ofNode ⟨.lvar, [.symbol "c"]⟩]⟩,
      ⟨.optarg, [.symbol "b", .ofNode ⟨.send, [.nil, .symbol "c"]⟩]⟩),
    (⟨.blockarg, [.nil]⟩, starNode .blockarg none)]

/-- the other spelling, with block-locals before and between the parameters -/
def assortedNodes : List Node :=
  shadowNode "s" :: (assorted.map Prod.fst).take 2 ++ shadowNode "t" :: (assorted.map Prod.fst).drop 2

theorem respelt_assorted : ∀ pair ∈ assorted, Respelt pair.1 pair.2 := by
  have hparts : ∀ pair ∈ [(⟨.arg, [.symbol "a"]⟩, ⟨.arg, [.symbol "a"]⟩), (⟨.restarg, [.nil]⟩, starNode .restarg none)],
      Respelt pair.1 pair.2 := by
    rw [List.forall_mem_cons, List.forall_mem_singleton]
    exact ⟨.same _, .nameless (by decide)⟩
  unfold assorted
  rw [List.forall_mem_cons, List.forall_mem_cons, List.forall_mem_singleton]
  exact ⟨.parts (by decide) hparts, .default (by decide) "b" "c", .nameless (by decide)⟩

theorem canonical_assorted :
    Canonical .block (.ofNodes .args (assorted.map Prod.snd ++ ["s", "t"].map shadowNode)) := by
  have hparts : ∀ part ∈ [⟨.arg, [.symbol "a"]⟩, starNode .restarg none], IsParam part := by
    rw [List.forall_mem_cons, List.forall_mem_singleton]
    exact ⟨.arg (by decide), .restarg (by decide)⟩
  have hnormals : ∀ normal ∈ assorted.map Prod.snd, IsParam normal := by
    unfold assorted
    simp only [List.map_cons, List.map_nil]
    rw [List.forall_mem_cons, List.forall_mem_cons, List.forall_mem_singleton]
    have hdefault : IsDefault ⟨.send, [.nil, .symbol "c"]⟩ := .call (by decide) (by decide) (by decide)
    exact ⟨.mlhs hparts ⟨by decide, by decide, by decide⟩, .optarg (by decide) hdefault, .blockarg (by decide)⟩
  have horder : InOrder .block ([.mlhs] ++ ([.optarg] ++ ([] ++ ([] ++ (([] ++ []) ++ [.blockarg]))))) :=
    .sections (by decide) (by decide) (Or.inl rfl) (by decide) (.accepted (by decide) (Or.inl rfl)) (Or.inr rfl)
  exact .list hnormals horder (by decide) (by decide)

/-- Block-locals out of place, missing names as nils and a variable as a default value, all in one list; and a mere name as
the sole parameter. -/
theorem read_respelt_assorted :
    (unparseArgs (.ofNodes .args assortedNodes) .block = .ok "(a, *), b = c, &; s, t" ∧
      read "(a, *), b = c, &; s, t" .block =
        .ok (.ofNodes .args (assorted.map Prod.snd ++ ["s", "t"].map shadowNode))) ∧
    unparseArgs (.ofNodes .args [⟨.procarg0, [.symbol "a"]⟩]) .block = .ok "a" ∧
      read "a" .block = .ok (.ofNodes .args [.ofNodes .procarg0 [⟨.arg, [.symbol "a"]⟩]]) := by
  have hseveral : RespeltList (.ofNodes .args assortedNodes)
      (.ofNodes .args (assorted.map Prod.snd ++ ["s", "t"].map shadowNode)) := .mk respelt_assorted rfl rfl
  have hpair : ∀ pair ∈ [(⟨.procarg0, [.symbol "a"]⟩, Node.ofNodes .procarg0 [⟨.arg, [.symbol "a"]⟩])],
      Respelt pair.1 pair.2 := List.forall_mem_singleton.2 (.sole "a")
  have hname : RespeltList (.ofNodes .args [⟨.procarg0, [.symbol "a"]⟩])
      (.ofNodes .args [.ofNodes .procarg0 [⟨.arg, [.symbol "a"]⟩]]) := .mk hpair rfl rfl
  have hsole : Canonical .block (.ofNodes .args [.ofNodes .procarg0 [⟨.arg, [.symbol "a"]⟩]]) :=
    .sole rfl (List.forall_mem_singleton.2 (.arg (by decide))) ⟨by decide, by decide, by decide⟩
      (List.forall_mem_nil IsName)
  obtain ⟨text, hvariant, -, hread⟩ := read_respelt canonical_assorted (by decide) hseveral
  obtain ⟨name, hmere, -, hagain⟩ := read_respelt hsole (by decide) hname
  obtain rfl : text = "(a, *), b = c, &; s, t" := Except.ok.inj (hvariant.symm.trans rfl)
  obtain rfl : name = "a" := Except.ok.inj (hmere.symm.trans rfl)
  exact ⟨⟨hvariant, hread⟩, hmere, hagain⟩

end RubySignature.Signature
