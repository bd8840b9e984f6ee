/-
The text of a parameter list.

A list is written as its ordinary parameters with commas between them, perhaps one more comma, and its block-locals after
a semicolon (`listText`). Each parameter is rendered as if it stood alone, one level down, so the text of the list is put
together from the texts of its parameters and fails with the first of them that fails, ordinary parameters before
block-locals (`perform_list`). Where the block-locals stand among the others does not matter.

The construct around the list is seen in two places only. Forwarding is refused in the list of a block or lambda before
anything else is looked at, and in a block a single plain parameter is followed by the extra comma. `unparseArgs_enclosing`
says that this is all that the construct changes: what stands in the parameters never learns of it.
-/
import RubySignature.Proofs.Param.Decoding
import RubySignature.Proofs.Render.Rendition

namespace RubySignature

open RenderM Rendition

/-! ## Lists and their texts -/

/-- parameters, the extra comma, and block-locals -/
def listText (texts : List String) (comma : Bool) (names : List String) : String :=
  ", ".intercalate texts ++
    ((if comma then ", " else "") ++ (if names.isEmpty then "" else "; " ++ ", ".intercalate names))

theorem needsComma_iff {list : ParamList} {enclosing : Enclosing} :
    needsComma list enclosing = true ↔ enclosing = .block ∧ list.normal.map Node.kind = [.arg] := by
  unfold needsComma Enclosing.isBlockLiteral
  rw [Bool.and_eq_true, beq_iff_eq]
  apply and_congr_right
  intro _
  split
  · rename_i node hnode
    rw [hnode]
    simp
  · rename_i hother
    constructor
    · intro h
      exact absurd h Bool.false_ne_true
    · intro h
      obtain ⟨node, hnode, _⟩ := List.map_eq_singleton_iff.1 h
      exact absurd hnode (hother node)

/-- Forwarding is refused only where the construct does not allow it. -/
theorem refuseForwarding_of_allowed {list : ParamList} {enclosing : Enclosing}
    (h : enclosing = .other ∨ ∀ node ∈ list.normal, node.kind ≠ .forwardArg) :
    refuseForwarding list enclosing = pure () := by
  have hallowed : ¬ (enclosing ≠ .other ∧ list.normal.any (·.kind = .forwardArg)) := by
    rintro ⟨hother, hany⟩
    obtain ⟨node, hnode, hkind⟩ := List.any_eq_true.1 hany
    rcases h with h | h
    · exact hother h
    · exact h node hnode (of_decide_eq_true hkind)
  exact if_neg hallowed

theorem refuseForwarding_of_mem {list : ParamList} {enclosing : Enclosing} {node : Node} (h : enclosing ≠ .other)
    (hnode : node ∈ list.normal) (hkind : node.kind = .forwardArg) :
    refuseForwarding list enclosing = throw (.misplaced .forwardArg enclosing) := by
  have hany : list.normal.any (·.kind = .forwardArg) = true := List.any_eq_true.2 ⟨node, hnode, decide_eq_true hkind⟩
  exact if_pos ⟨h, hany⟩

theorem ofNode_args (nodes : List Node) : Param.ofNode (.ofNodes .args nodes) = .ok (.args (.partition nodes)) :=
  Param.ofNode_of_decodes (.args rfl (ParamList.interleaves_partition nodes))

/-! ## Lists from their parameters -/

theorem inTurn_commas (nodes : List Node) (part : Node → Rendition) :
    inTurn ((nodes.map part).intersperse (.ok ", ")) = (nodes.mapM part).map (", ".intercalate ·) := by
  induction nodes with
  | nil => rfl
  | cons node later ih =>
    cases later with
    | nil =>
      rw [List.map_singleton, List.intersperse_singleton, inTurn_singleton, List.mapM_cons, List.mapM_nil]
      cases part node with
      | error error => rfl
      | ok text => exact congrArg Except.ok String.intercalate_singleton.symm
    | cons next later =>
      rw [List.map_cons, List.map_cons, List.intersperse_cons_cons, ← List.map_cons, inTurn_cons, inTurn_cons, ih,
        List.mapM_cons (a := node), List.mapM_cons]
      cases part node with
      | error error => rfl
      | ok text =>
        cases part next with
        | error error => rfl
        | ok second =>
          cases later.mapM part with
          | error error => rfl
          | ok texts =>
            have htexts : ", ".intercalate (text :: second :: texts) =
                text ++ (", " ++ ", ".intercalate (second :: texts)) := by
              rw [String.intercalate_cons_cons, String.append_assoc]
            exact congrArg Except.ok htexts.symm

namespace ParamList

def rendition (part : Node → Rendition) (list : ParamList) (comma : Bool) : Rendition := do
  let texts ← list.normal.mapM part
  let locals ← list.shadow.mapM part
  return listText texts comma locals

def parts (part : Node → Rendition) (list : ParamList) (comma : Bool) : List Rendition :=
  (list.normal.map part).intersperse (.ok ", ") ++
    ((if comma then [.ok ", "] else []) ++
      (if !list.shadow.isEmpty then .ok "; " :: (list.shadow.map part).intersperse (.ok ", ") else []))

variable {part : Node → Rendition} {list : ParamList} {comma : Bool}

theorem inTurn_parts : inTurn (list.parts part comma) = list.rendition part comma := by
  have hcomma : inTurn (if comma then [.ok ", "] else []) = .ok (if comma then ", " else "") := by
    cases comma <;> rfl
  have hlocals :
      inTurn (if !list.shadow.isEmpty then .ok "; " :: (list.shadow.map part).intersperse (.ok ", ") else []) =
        (list.shadow.mapM part).map fun locals =>
          if locals.isEmpty then "" else "; " ++ ", ".intercalate locals := by
    cases list.shadow with
    | nil => rfl
    | cons node later =>
      have hparts := inTurn_commas (node :: later) part
      rw [List.isEmpty_cons, Bool.not_false, if_pos rfl, inTurn_cons, hparts, List.mapM_cons]
      cases part node with
      | error error => rfl
      | ok text => cases later.mapM part <;> rfl
  unfold parts rendition listText
  rw [inTurn_append, inTurn_append, inTurn_commas, hcomma, hlocals]
  cases list.normal.mapM part with
  | error error => rfl
  | ok texts => cases list.shadow.mapM part <;> rfl

theorem rendition_of_texts {texts locals : List String} (hnormal : list.normal.mapM part = .ok texts)
    (hshadow : list.shadow.mapM part = .ok locals) : list.rendition part comma = .ok (listText texts comma locals) := by
  unfold rendition
  rw [hnormal, hshadow]
  rfl

theorem rendition_ok {text : String} (h : list.rendition part comma = .ok text) :
    ∃ texts locals, list.normal.mapM part = .ok texts ∧ list.shadow.mapM part = .ok locals ∧
      text = listText texts comma locals := by
  obtain ⟨texts, hnormal, hlater⟩ := bind_ok_iff.1 h
  obtain ⟨locals, hshadow, htext⟩ := bind_ok_iff.1 hlater
  exact ⟨texts, locals, hnormal, hshadow, (Except.ok.inj htext).symm⟩

theorem rendition_error {error : EmitError} (h : (list.normal ++ list.shadow).mapM part = .error error) :
    list.rendition part comma = .error error := by
  rw [List.mapM_append] at h
  unfold rendition
  cases hnormal : list.normal.mapM part with
  | error first =>
    rw [hnormal] at h
    exact congrArg Except.error (Except.error.inj h)
  | ok texts =>
    rw [hnormal] at h
    cases hshadow : list.shadow.mapM part with
    | error first =>
      rw [hshadow] at h
      exact congrArg Except.error (Except.error.inj h)
    | ok locals =>
      rw [hshadow] at h
      cases h

/-- the comma is of no account to an error -/
theorem rendition_error_comma {error : EmitError} (h : list.rendition part comma = .error error) (another : Bool) :
    list.rendition part another = .error error := by
  unfold rendition at h ⊢
  rcases bind_error_iff.1 h with hnormal | ⟨texts, hnormal, hlater⟩
  · exact bind_error_iff.2 (Or.inl hnormal)
  · rcases bind_error_iff.1 hlater with hshadow | ⟨locals, _, htext⟩
    · exact bind_error_iff.2 (Or.inr ⟨texts, hnormal, bind_error_iff.2 (Or.inl hshadow)⟩)
    · cases htext

end ParamList

/-- The first node that fails decides. -/
theorem mapM_first_error {part : Node → Rendition} {before later : List Node} {node : Node} {error : EmitError}
    (hbefore : ∀ earlier ∈ before, ∃ text, part earlier = .ok text) (hnode : part node = .error error) :
    (before ++ node :: later).mapM part = .error error := by
  induction before with
  | nil =>
    rw [List.nil_append, List.mapM_cons, hnode]
    rfl
  | cons earlier before ih =>
    obtain ⟨⟨text, hearlier⟩, hothers⟩ := List.forall_mem_cons.1 hbefore
    rw [List.cons_append, List.mapM_cons, hearlier, ih hothers]
    rfl

section

variable {host : Host} {limit levels : Nat} {enclosing : Enclosing} {nodes : List Node}

theorem rendition_list (h : enclosing = .other ∨ ∀ node ∈ (ParamList.partition nodes).normal, node.kind ≠ .forwardArg) :
    rendition host limit (levels + 1) enclosing (.ofNodes .args nodes) =
      (ParamList.partition nodes).rendition (rendition host limit levels .other)
        (needsComma (.partition nodes) enclosing) := by
  let list := ParamList.partition nodes
  let part := rendition host limit levels .other
  have hnormal : HasParts (rendition host limit levels) .other (delimited list.normal)
      ((list.normal.map part).intersperse (.ok ", ")) := HasParts.delimited list.normal
  have hcomma : HasParts (rendition host limit levels) .other (given (needsComma list enclosing) (write ", "))
      (if needsComma list enclosing then [.ok ", "] else []) := HasParts.given _ (HasParts.write ", ")
  have hshadow : HasParts (rendition host limit levels) .other
      (given (!list.shadow.isEmpty) (do write "; "; delimited list.shadow))
      (if !list.shadow.isEmpty then .ok "; " :: (list.shadow.map part).intersperse (.ok ", ") else []) :=
    HasParts.given _ (HasParts.seq (HasParts.write "; ") (HasParts.delimited list.shadow))
  have hparts : HasParts (rendition host limit levels) .other (renderNode host (.ofNodes .args nodes) enclosing)
      (list.parts part (needsComma list enclosing)) := by
    rw [renderNode_param rfl (ofNode_args nodes), renderParam, renderList_eq, refuseForwarding_of_allowed h]
    have hlist := HasParts.seq HasParts.pure (HasParts.seq hnormal (HasParts.seq hcomma hshadow))
    rwa [List.nil_append] at hlist
  exact hparts.trans ParamList.inTurn_parts

theorem rendition_list_misplaced (h : enclosing ≠ .other) {node : Node} (hnode : node ∈ nodes)
    (hkind : node.kind = .forwardArg) :
    rendition host limit (levels + 1) enclosing (.ofNodes .args nodes) = .error (.misplaced .forwardArg enclosing) := by
  have hnormal : node ∈ (ParamList.partition nodes).normal := by
    refine List.mem_filter.2 ⟨hnode, ?_⟩
    rw [hkind]
    rfl
  rw [rendition, renderNode_param rfl (ofNode_args nodes), renderParam, renderList_eq,
    refuseForwarding_of_mem h hnormal hkind]
  rfl

end

/-! ## Lists on an emitter -/

namespace Emitter

/-- What a node comes to on its own, one level below the emitter and in no construct that owns parameters. -/
def alone (emitter : Emitter) (node : Node) : Rendition :=
  let (outcome, after) := visitor Host.basic node { limit := emitter.limit, depth := emitter.depth + 1 }
  outcome.map fun () => after.output.text

theorem alone_eq (emitter : Emitter) (node : Node) :
    emitter.alone node = rendition Host.basic emitter.limit (emitter.limit - (emitter.depth + 1)) .other node := by
  let inside : Emitter := { limit := emitter.limit, depth := emitter.depth + 1 }
  have hvisit : emitter.alone node = (visitor Host.basic node inside).1.map fun () =>
    (visitor Host.basic node inside).2.output.text := rfl
  rw [hvisit, visitor]
  cases h : rendition Host.basic emitter.limit (emitter.limit - (emitter.depth + 1)) .other node with
  | error error =>
    rw [descend_of_error inside h]
    rfl
  | ok text =>
    rw [descend_of_text inside h]
    exact congrArg Except.ok String.empty_append

end Emitter

/-- A list is rendered by its two groups of parameters, so how they are interleaved is of no account. -/
theorem descend_list_congr (host : Host) (levels : Nat) {nodes others : List Node}
    (h : ParamList.partition others = .partition nodes) (emitter : Emitter) :
    Emitter.descend host levels (.ofNodes .args others) emitter =
      Emitter.descend host levels (.ofNodes .args nodes) emitter := by
  cases levels with
  | zero => rfl
  | succ levels =>
    have henter : emitter.enter (.ofNodes .args others) = emitter.enter (.ofNodes .args nodes) := rfl
    rw [Emitter.descend, Emitter.descend, henter, renderNode_param rfl (ofNode_args others),
      renderNode_param rfl (ofNode_args nodes), h]

/-- visiting a list in place is rendering it in the construct that the emitter is in -/
theorem visit_list (host : Host) (nodes : List Node) (emitter : Emitter) :
    emitter.perform host (visit (.ofNodes .args nodes)) =
      emitter.perform host (visitArgs (.ofNodes .args nodes) emitter.enclosing) := by
  have hkeeps := (Stretch.visitor_sound emitter.limit host (.ofNodes .args nodes) emitter).1
  change Emitter.visitor host (.ofNodes .args nodes) emitter =
    ((Emitter.visitor host (.ofNodes .args nodes) emitter).1,
      { (Emitter.visitor host (.ofNodes .args nodes) emitter).2 with enclosing := emitter.enclosing })
  rw [← hkeeps.enclosing]

/-- How the parameters of a list are interleaved is of no account to the emitter. -/
theorem perform_list_congr (host : Host) {nodes others : List Node} (h : ParamList.partition others = .partition nodes)
    (enclosing : Enclosing) (emitter : Emitter) :
    emitter.perform host (visitArgs (.ofNodes .args others) enclosing) =
      emitter.perform host (visitArgs (.ofNodes .args nodes) enclosing) := by
  have hvisit : Emitter.visitor host (.ofNodes .args others) { emitter with enclosing } =
      Emitter.visitor host (.ofNodes .args nodes) { emitter with enclosing } :=
    descend_list_congr host (emitter.limit - emitter.depth) h { emitter with enclosing }
  change (Emitter.visitor host).visitArgs (.ofNodes .args others) enclosing emitter =
    (Emitter.visitor host).visitArgs (.ofNodes .args nodes) enclosing emitter
  rw [visitArgs_list _ rfl, visitArgs_list _ rfl, hvisit]

/-- A list comes to what its parameters come to on their own. -/
theorem perform_list_comesTo {nodes : List Node} {enclosing : Enclosing} {emitter : Emitter}
    (hroom : emitter.depth < emitter.limit) (hforward : enclosing = .other ∨ ∀ node ∈ nodes, node.kind ≠ .forwardArg) :
    ComesTo emitter (emitter.perform Host.basic (visitArgs (.ofNodes .args nodes) enclosing))
      ((ParamList.partition nodes).rendition emitter.alone
        (enclosing = .block ∧ (ParamList.partition nodes).normal.map Node.kind = [.arg])) := by
  obtain ⟨levels, hlevels⟩ : ∃ levels, emitter.limit - emitter.depth = levels + 1 :=
    ⟨emitter.limit - emitter.depth - 1, by omega⟩
  have hbelow : emitter.limit - (emitter.depth + 1) = levels := by omega
  have halone : emitter.alone = rendition Host.basic emitter.limit levels .other := by
    funext node
    rw [Emitter.alone_eq, hbelow]
  have hallowed : enclosing = .other ∨ ∀ node ∈ (ParamList.partition nodes).normal, node.kind ≠ .forwardArg := by
    refine hforward.imp_right ?_
    intro hnodes node hnode
    exact hnodes node (List.mem_of_mem_filter hnode)
  have hcomma : needsComma (.partition nodes) enclosing =
      decide (enclosing = .block ∧ (ParamList.partition nodes).normal.map Node.kind = [.arg]) := by
    rw [Bool.eq_iff_iff, needsComma_iff, decide_eq_true_iff]
  have hrun : ComesTo emitter (emitter.perform Host.basic (visitArgs (.ofNodes .args nodes) enclosing))
      (rendition Host.basic emitter.limit (emitter.limit - emitter.depth) enclosing (.ofNodes .args nodes)) :=
    ComesTo.list rfl (descend_rendition Host.basic_eager _ _ { emitter with enclosing })
  rwa [hlevels, rendition_list hallowed, ← halone, hcomma] at hrun

/-- **The text of a parameter list.** Take any list of parameters, on any emitter that has a level left, rendered as if it
stood in any construct, but without forwarding in a block or lambda. If each parameter on its own comes to a text, the
list appends the texts of the ordinary ones with commas between them, then a comma if a single plain parameter stands in a
block, and then, if there are any, a semicolon and the block-locals with commas between them. Otherwise it fails with the
error of the first parameter that fails, ordinary ones before block-locals. Any other list with the same ordinary
parameters and the same block-locals, each in their order, comes to the same from every emitter, and visiting a list where
it stands is rendering it in the construct that it stands in. -/
theorem perform_list (nodes : List Node) (enclosing : Enclosing) (emitter : Emitter) :
    let normal := nodes.filter (·.kind ≠ .shadowarg)
    let shadow := nodes.filter (·.kind = .shadowarg)
    let run := emitter.perform Host.basic (visitArgs (.ofNodes .args nodes) enclosing)
    (emitter.depth < emitter.limit → (enclosing = .other ∨ ∀ node ∈ nodes, node.kind ≠ .forwardArg) →
      (∀ texts locals, normal.mapM emitter.alone = .ok texts → shadow.mapM emitter.alone = .ok locals →
        let text := listText texts (enclosing = .block ∧ normal.map Node.kind = [.arg]) locals
        run = (.ok (), emitter.write text) ∧ run.2.output.text = emitter.output.text ++ text) ∧
      ∀ before node later error, normal ++ shadow = before ++ node :: later →
        (∀ earlier ∈ before, ∃ text, emitter.alone earlier = .ok text) → emitter.alone node = .error error →
          run.1 = .error error) ∧
    (∀ others : List Node, others.filter (·.kind ≠ .shadowarg) = normal → others.filter (·.kind = .shadowarg) = shadow →
      emitter.perform Host.basic (visitArgs (.ofNodes .args others) enclosing) = run) ∧
    (emitter.enclosing = enclosing → emitter.perform Host.basic (visit (.ofNodes .args nodes)) = run) := by
  intro normal shadow run
  refine ⟨?_, ?_, ?_⟩
  · intro hroom hforward
    have hrun := perform_list_comesTo hroom hforward
    constructor
    · intro texts locals hnormal hshadow text
      rw [ParamList.rendition_of_texts hnormal hshadow] at hrun
      have happended : run = (.ok (), emitter.write text) := hrun
      constructor
      · exact happended
      · rw [happended, Emitter.text_write]
    · intro before node later error hsplit hbefore hnode
      have hfirst : (normal ++ shadow).mapM emitter.alone = .error error := by
        rw [hsplit]
        exact mapM_first_error hbefore hnode
      rw [ParamList.rendition_error hfirst] at hrun
      exact hrun
  · intro others hnormal hshadow
    apply perform_list_congr
    unfold ParamList.partition
    rw [hnormal, hshadow]
  · rintro rfl
    exact visit_list Host.basic nodes emitter

/-- block-locals around a plain parameter -/
def scattered : List Node := [⟨.shadowarg, [.symbol "s"]⟩, ⟨.arg, [.symbol "a"]⟩, ⟨.shadowarg, [.symbol "t"]⟩]

def gathered : List Node := [⟨.arg, [.symbol "a"]⟩, ⟨.shadowarg, [.symbol "s"]⟩, ⟨.shadowarg, [.symbol "t"]⟩]

def nameless : List Node := [.leaf .shadowarg, ⟨.arg, [.int 1]⟩]

/-- In the middle of a pass, with three levels left: the comma of a block stands before the block-locals, wherever these
stood, and of two parameters that fail the ordinary one comes first. -/
theorem perform_list_scattered :
    let used : Emitter := { limit := 5, depth := 2, enclosing := .lambda, output := ⟨"each |"⟩ }
    used.perform Host.basic (visitArgs (.ofNodes .args scattered) .block) = (.ok (), used.write "a, ; s, t") ∧
      (used.perform Host.basic (visitArgs (.ofNodes .args scattered) .block)).2.output.text = "each |a, ; s, t" ∧
      used.perform Host.basic (visitArgs (.ofNodes .args gathered) .block) = (.ok (), used.write "a, ; s, t") ∧
      (used.perform Host.basic (visitArgs (.ofNodes .args nameless) .block)).1 =
        .error (.shape (.childType .arg 0 .symbol)) ∧
      used.perform Host.basic (visit (.ofNodes .args scattered)) =
        used.perform Host.basic (visitArgs (.ofNodes .args scattered) .lambda) := by
  intro used
  have hroom : used.depth < used.limit := by decide
  obtain ⟨hscattered, hinterleaved, -⟩ := perform_list scattered .block used
  obtain ⟨hnameless, -, -⟩ := perform_list nameless .block used
  obtain ⟨-, -, hplace⟩ := perform_list scattered .lambda used
  obtain ⟨hrun, htext⟩ := (hscattered hroom (Or.inr (by decide))).1 ["a"] ["s", "t"] rfl rfl
  have herror := (hnameless hroom (Or.inr (by decide))).2 [] ⟨.arg, [.int 1]⟩ [.leaf .shadowarg] _ rfl
    (List.forall_mem_nil _) rfl
  have hlist : listText ["a"] true ["s", "t"] = "a, ; s, t" := by decide
  have hafter : "each |a, ; s, t" = used.output.text ++ listText ["a"] true ["s", "t"] := by decide
  rw [hafter, ← hlist]
  exact ⟨hrun, htext, (hinterleaved gathered rfl rfl).trans hrun, herror, hplace rfl⟩

/-! ## Lists in different constructs -/

/-- A list holds nothing but nodes, or it is refused as such. -/
theorem exists_nodes_or_error {list : Node} (hkind : list.kind = .args) :
    (∃ nodes, list = .ofNodes .args nodes) ∨ ∃ error, Param.ofNode list = .error error := by
  obtain ⟨kind, children⟩ := list
  obtain rfl : kind = .args := hkind
  cases hdecode : Param.ofNode ⟨.args, children⟩ with
  | error error => exact Or.inr ⟨error, rfl⟩
  | ok param =>
    cases Param.decodes_of_ofNode hdecode with
    | args hnodes => exact Or.inl ⟨_, congrArg (Node.mk .args) hnodes⟩

theorem rendition_of_undecoded {host : Host} {limit levels : Nat} {node : Node} {error : ShapeError}
    (hkind : node.kind.isParameter = true) (h : Param.ofNode node = .error error) (enclosing : Enclosing) :
    rendition host limit (levels + 1) enclosing node = .error (.shape error) := by
  rw [rendition, renderNode, if_pos hkind, h]
  rfl

/-- a plain parameter that is rendered is a name, and is written as the name -/
theorem eq_arg_of_rendition {host : Host} {limit levels : Nat} {enclosing : Enclosing} {node : Node} {text : String}
    (hkind : node.kind = .arg) (h : rendition host limit levels enclosing node = .ok text) :
    node = ⟨.arg, [.symbol text]⟩ := by
  obtain ⟨kind, children⟩ := node
  obtain rfl : kind = .arg := hkind
  cases levels with
  | zero => cases h
  | succ levels =>
    cases hparam : Param.ofNode ⟨.arg, children⟩ with
    | error error =>
      rw [rendition_of_undecoded rfl hparam] at h
      cases h
    | ok param =>
      cases Param.decodes_of_ofNode hparam with
      | arg name =>
        have hname : rendition host limit (levels + 1) enclosing ⟨.arg, [.symbol name]⟩ = .ok (name ++ "") := rfl
        rw [hname, String.append_empty] at h
        rw [Except.ok.inj h]

/-- a single plain parameter that is rendered is a name, and the comma comes directly after it -/
theorem exists_name_of_rendition {host : Host} {limit levels : Nat} {list : ParamList} {text : String}
    (harg : list.normal.map Node.kind = [.arg])
    (h : list.rendition (rendition host limit levels .other) false = .ok text) :
    ∃ name locals, list.normal = [⟨.arg, [.symbol name]⟩] ∧ text = listText [name] false locals ∧
      list.rendition (rendition host limit levels .other) true = .ok (listText [name] true locals) := by
  obtain ⟨texts, locals, hnormal, hshadow, rfl⟩ := ParamList.rendition_ok h
  obtain ⟨node, hnode, hkind⟩ := List.map_eq_singleton_iff.1 harg
  have hsplit := hnormal
  rw [hnode, List.mapM_cons, List.mapM_nil] at hsplit
  obtain ⟨name, hname, htexts⟩ := bind_ok_iff.1 hsplit
  obtain rfl : [name] = texts := Except.ok.inj htexts
  rw [eq_arg_of_rendition hkind hname] at hnode
  exact ⟨name, locals, hnode, rfl, ParamList.rendition_of_texts hnormal hshadow⟩

/-- the comma of a block is of no account to a list that fails or has other parameters than a single plain one -/
theorem ParamList.rendition_needsComma {part : Node → Rendition} {list : ParamList}
    (h : ∀ text, list.rendition part false = .ok text → list.normal.map Node.kind ≠ [.arg]) :
    list.rendition part (needsComma list .block) = list.rendition part false := by
  cases hcomma : needsComma list .block with
  | false => rfl
  | true =>
    cases hrendered : list.rendition part false with
    | error error => exact rendition_error_comma hrendered true
    | ok text => exact absurd (needsComma_iff.1 hcomma).2 (h text hrendered)

theorem unparseArgs_misplaced {nodes : List Node} {node : Node} (hnode : node ∈ nodes) (hkind : node.kind = .forwardArg)
    {enclosing : Enclosing} (h : enclosing ≠ .other) :
    unparseArgs (.ofNodes .args nodes) enclosing = .error (.misplaced .forwardArg enclosing) :=
  (unparseArgs_rendition rfl enclosing).trans (rendition_list_misplaced h hnode hkind)

theorem unparseArgs_of_undecoded {list : Node} (hkind : list.kind = .args) {error : ShapeError}
    (h : Param.ofNode list = .error error) (enclosing : Enclosing) : unparseArgs list enclosing = .error (.shape error) :=
  (unparseArgs_rendition hkind enclosing).trans (rendition_of_undecoded (hkind ▸ rfl) h enclosing)

/-- Without forwarding, a list shows the construct only in the comma. -/
theorem unparseArgs_ofNodes {nodes : List Node} (h : ∀ node ∈ nodes, node.kind ≠ .forwardArg) (enclosing : Enclosing) :
    unparseArgs (.ofNodes .args nodes) enclosing =
      (ParamList.partition nodes).rendition (rendition Host.basic defaultLimit 255 .other)
        (needsComma (.partition nodes) enclosing) := by
  have hforward : ∀ node ∈ (ParamList.partition nodes).normal, node.kind ≠ .forwardArg := by
    intro node hnode
    exact h node (List.mem_of_mem_filter hnode)
  exact (unparseArgs_rendition rfl enclosing).trans (rendition_list (Or.inr hforward))

/-- **What the construct around a list changes.** If a parameter list holds forwarding and nothing but nodes, it is refused
in a block and in a lambda for the forwarding, whatever else is wrong with it. Any other list comes to the same, text or
error, in a lambda and in a method definition. In a block it comes to the same again, unless its ordinary parameters are a
single plain one and it is rendered: then a comma is added directly after the name, before the block-locals. -/
theorem unparseArgs_enclosing {list : Node} (hkind : list.kind = .args) :
    let normal := list.nodes.filter (·.kind ≠ .shadowarg)
    let forwarding := ∃ nodes, list = .ofNodes .args nodes ∧ ∃ node ∈ nodes, node.kind = .forwardArg
    (forwarding → ∀ enclosing, enclosing ≠ .other →
      unparseArgs list enclosing = .error (.misplaced .forwardArg enclosing)) ∧
    (¬ forwarding → unparseArgs list .lambda = unparseArgs list .other ∧
      ((∀ text, unparseArgs list .other = .ok text → normal.map Node.kind ≠ [.arg]) →
        unparseArgs list .block = unparseArgs list .other) ∧
      ∀ text, unparseArgs list .other = .ok text → normal.map Node.kind = [.arg] →
        ∃ name locals, normal = [⟨.arg, [.symbol name]⟩] ∧ text = listText [name] false locals ∧
          unparseArgs list .block = .ok (listText [name] true locals)) := by
  intro normal forwarding
  rcases exists_nodes_or_error hkind with ⟨nodes, rfl⟩ | ⟨error, hundecoded⟩
  · constructor
    · rintro ⟨others, hothers, node, hnode, hforward⟩ enclosing henclosing
      obtain rfl := ofNodes_inj hothers
      exact unparseArgs_misplaced hnode hforward henclosing
    · intro hnone
      have hlist := unparseArgs_ofNodes fun node hnode hforward => hnone ⟨nodes, rfl, node, hnode, hforward⟩
      have hother := hlist .other
      have hlambda := hlist .lambda
      rw [show needsComma (.partition nodes) .other = false from rfl] at hother
      rw [show needsComma (.partition nodes) .lambda = false from rfl] at hlambda
      have hnormal : normal = (ParamList.partition nodes).normal := by
        simp only [normal, nodes_ofNodes]
        rfl
      rw [hlist .block, hlambda, hother, hnormal]
      refine ⟨rfl, ParamList.rendition_needsComma, ?_⟩
      intro text htext harg
      rw [needsComma_iff.2 ⟨rfl, harg⟩]
      exact exists_name_of_rendition harg htext
  · -- some child is no node, and every construct refuses the list for that
    have herror := unparseArgs_of_undecoded hkind hundecoded
    rw [herror, herror]
    constructor
    · rintro ⟨nodes, rfl, -⟩
      rw [ofNode_args] at hundecoded
      cases hundecoded
    · intro _
      refine ⟨rfl, fun _ => herror .block, ?_⟩
      intro text htext
      cases htext

def namelessForwarding : List Node := [⟨.arg, [.int 1]⟩, .leaf .forwardArg]

/-- A lambda refuses forwarding before it looks at the other parameter; a block has its comma before the block-locals, and
none after two parameters. -/
theorem unparseArgs_enclosing_scattered :
    unparseArgs (.ofNodes .args namelessForwarding) .lambda = .error (.misplaced .forwardArg .lambda) ∧
      (unparseArgs (.ofNodes .args scattered) .lambda = .ok "a; s, t" ∧
        unparseArgs (.ofNodes .args scattered) .block = .ok "a, ; s, t") ∧
      unparseArgs (.ofNodes .args [⟨.arg, [.symbol "a"]⟩, ⟨.arg, [.symbol "b"]⟩]) .block = .ok "a, b" := by
  have hnone {nodes : List Node} (h : ∀ node ∈ nodes, node.kind ≠ .forwardArg) :
      ¬ ∃ others, Node.ofNodes .args nodes = .ofNodes .args others ∧ ∃ node ∈ others, node.kind = .forwardArg := by
    rintro ⟨others, hothers, node, hnode, hkind⟩
    obtain rfl := ofNodes_inj hothers
    exact h node hnode hkind
  have hother : unparseArgs (.ofNodes .args scattered) .other = .ok "a; s, t" := rfl
  have hpair : unparseArgs (.ofNodes .args [⟨.arg, [.symbol "a"]⟩, ⟨.arg, [.symbol "b"]⟩]) .other = .ok "a, b" := rfl
  obtain ⟨hforwarding, -⟩ := unparseArgs_enclosing (show (Node.ofNodes .args namelessForwarding).kind = .args from rfl)
  obtain ⟨-, hscattered⟩ := unparseArgs_enclosing (show (Node.ofNodes .args scattered).kind = .args from rfl)
  obtain ⟨-, htwo⟩ := unparseArgs_enclosing
    (show (Node.ofNodes .args [⟨.arg, [.symbol "a"]⟩, ⟨.arg, [.symbol "b"]⟩]).kind = .args from rfl)
  obtain ⟨hlambda, -, hblock⟩ := hscattered (hnone (by decide))
  obtain ⟨-, hplain, -⟩ := htwo (hnone (by decide))
  obtain ⟨name, locals, hnormal, htext, hcomma⟩ := hblock _ hother rfl
  refine ⟨hforwarding ⟨namelessForwarding, rfl, _, List.mem_cons_of_mem _ List.mem_cons_self, rfl⟩ _ (by decide),
    ⟨hlambda.trans hother, ?_⟩, (hplain fun _ _ => by decide).trans hpair⟩
  obtain rfl : "a" = name := Child.symbol.inj (List.cons.inj (Node.mk.inj (List.cons.inj hnormal).1).2).1
  unfold listText at htext hcomma
  rw [String.intercalate_singleton] at htext hcomma
  have hrest := (String.append_right_inj "a").1 (show "a" ++ "; s, t" = _ from htext)
  rw [if_neg Bool.false_ne_true, String.empty_append] at hrest
  rw [← hrest] at hcomma
  exact hcomma

end RubySignature
