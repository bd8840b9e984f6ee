/-
Parameter lists in the literals and definitions that hold them.

A list that is met in a block, in a lambda or in a method definition is rendered as it would be on its own in that
construct, and the call and the body around it as they would be in none. `unparseWith_embeds` says so part by part. The
parts have one level less than the whole. So the whole fails as the first of its parts that fails, except that an error
that names the limit names that of the whole.
-/
import RubySignature.Proofs.Render.Rendition

namespace RubySignature

open RenderM Rendition

/-! ## Parts that may be missing -/

def Child.ofNode? : Option Node → Child
  | some found => .ofNode found
  | none => .nil

/-- a list and what is written around it, nothing for a list without children -/
def listParts (opening : String) (params : Node) (list : Rendition) (closing : String) : List Rendition :=
  if !params.children.isEmpty then [.ok opening, list, .ok closing] else []

/-- what is written before a body and the body, nothing if there is no body -/
def bodyParts (before : List String) (body? : Option Node) (part : Node → Rendition) : List Rendition :=
  body?.toList.flatMap fun body => before.map .ok ++ [part body]

/-! ## Renderers -/

section

variable {visits : Enclosing → Node → Rendition} {enclosing : Enclosing}

theorem renderOpening_hasParts (call params : Node) : HasParts visits enclosing (renderOpening call params)
    (if call.kind = .lambda then
      .ok "->" :: (listParts "(" params (visits enclosing params) ")" ++ [.ok " \x7b"])
    else visits enclosing call :: .ok " \x7b" :: listParts " |" params (visits enclosing params) "|") := by
  unfold renderOpening
  split
  · exact .seq (.write "->") (.seq (.given _ (.parentheses (.visit params))) (.write " \x7b"))
  · exact .seq (.visit call) (.seq (.write " \x7b") (.given _ (.seq (.write " |") (.seq (.visit params) (.write "|")))))

theorem renderBlock_hasParts (call params : Node) (body? : Option Node) :
    HasParts visits enclosing (Host.renderBlock ⟨.block, [.ofNode call, .ofNode params, .ofNode? body?]⟩)
      ((if call.kind = .lambda then
          .ok "->" :: (listParts "(" params (visits enclosing params) ")" ++ [.ok " \x7b"])
        else visits enclosing call :: .ok " \x7b" :: listParts " |" params (visits enclosing params) "|") ++
        (bodyParts [" "] body? (visits enclosing) ++ [.ok " \x7d"])) := by
  have hdecode : Host.blockParts ⟨.block, [.ofNode call, .ofNode params, .ofNode? body?]⟩ =
      .ok (call, params, body?) := by
    cases body? <;> rfl
  rw [Host.renderBlock_parts]
  refine .ofShape hdecode (.seq (renderOpening_hasParts call params) (.seq (.option ?_) (.write " \x7d")))
  intro body
  exact .seq (.write " ") (.visit body)

theorem renderMethod_hasParts (name : String) (params : Node) (body? : Option Node) :
    HasParts visits enclosing (Host.renderMethod ⟨.methodDef, [.symbol name, .ofNode params, .ofNode? body?]⟩)
      ([.ok "def ", .ok name] ++ (listParts "(" params (visits enclosing params) ")" ++
        (bodyParts ["\n", "  "] body? (visits enclosing) ++ [.ok "\nend"]))) := by
  have hdecode : Host.methodParts ⟨.methodDef, [.symbol name, .ofNode params, .ofNode? body?]⟩ =
      .ok (name, params, body?) := by
    cases body? <;> rfl
  rw [Host.renderMethod_parts]
  refine .ofShape hdecode (.seq (.writeAll ["def ", name]) (.seq (.given _ (.parentheses (.visit params)))
    (.seq (.option ?_) (.write "\nend"))))
  intro body
  have hbody : HasParts visits enclosing (do write "\n"; write "  "; visit body)
      ([.ok "\n"] ++ ([.ok "  "] ++ [visits enclosing body])) := .seq (.write "\n") (.seq (.write "  ") (.visit body))
  exact hbody

end

/-! ## One level up -/

/-- What a node comes to that is rendered in parts with one level less: its parts in turn, but an error that names the
limit names that of the node. -/
def Rendition.whole (limit : Nat) (parts : List Rendition) : Rendition := (inTurn parts).mapError (·.atLimit limit)

theorem inTurn_mapError (f : EmitError → EmitError) (parts : List Rendition) :
    inTurn (parts.map (·.mapError f)) = (inTurn parts).mapError f := by
  induction parts with
  | nil => rfl
  | cons part later ih =>
    rw [List.map_cons, inTurn_cons, inTurn_cons, ih]
    cases part with
    | error error => rfl
    | ok text => cases inTurn later <;> rfl

section

variable {f : EmitError → EmitError} {opening closing : String} {params : Node} {list : Rendition}
  {before : List String} {body? : Option Node} {part : Node → Rendition}

theorem map_listParts :
    (listParts opening params list closing).map (·.mapError f) = listParts opening params (list.mapError f) closing := by
  unfold listParts
  split <;> rfl

theorem map_bodyParts : (bodyParts before body? part).map (·.mapError f) =
    bodyParts before body? fun body => (part body).mapError f := by
  cases body? with
  | none => rfl
  | some body =>
    have hbefore : (before.map Except.ok).map (Except.mapError f) = (before.map .ok : List Rendition) := by
      rw [List.map_map]
      rfl
    unfold bodyParts
    rw [Option.toList_some, List.flatMap_singleton, List.flatMap_singleton, List.map_append, hbefore]
    rfl

theorem bodyParts_congr {another : Node → Rendition} (h : ∀ body ∈ body?, part body = another body) :
    bodyParts before body? part = bodyParts before body? another := by
  cases body? with
  | none => rfl
  | some body =>
    unfold bodyParts
    rw [Option.toList_some, List.flatMap_singleton, List.flatMap_singleton, h body rfl]

end

section

variable {limit : Nat} {enclosing : Enclosing}

/-- A node comes to what it comes to on its own, where it stands in no construct, and elsewhere if it is no list. -/
theorem rendition_succ_alone {node : Node} (h : enclosing = .other ∨ node.kind ≠ .args) :
    rendition Host.basic (limit + 1) limit enclosing node =
      (unparseWith Host.basic limit node).mapError (·.atLimit (limit + 1)) := by
  have hother : rendition Host.basic (limit + 1) limit enclosing node =
      rendition Host.basic (limit + 1) limit .other node := by
    rcases h with rfl | hkind
    · rfl
    · exact rendition_of_kind_ne hkind enclosing .other
  rw [unparseWith_rendition, hother, rendition_atLimit limit (limit + 1)]

/-- A list comes to what it comes to on its own in the same construct. -/
theorem rendition_succ_list {params : Node} (h : params.kind = .args) (enclosing : Enclosing) :
    rendition Host.basic (limit + 1) limit enclosing params =
      (Emitter.textOf Host.basic limit (visitArgs params enclosing)).mapError (·.atLimit (limit + 1)) := by
  rw [textOf_visitArgs limit h, rendition_atLimit limit (limit + 1)]

theorem bodyParts_succ {before : List String} {body? : Option Node}
    (h : enclosing = .other ∨ ∀ body ∈ body?, body.kind ≠ .args) :
    bodyParts before body? (rendition Host.basic (limit + 1) limit enclosing) =
      (bodyParts before body? (unparseWith Host.basic limit)).map (·.mapError (·.atLimit (limit + 1))) := by
  rw [map_bodyParts]
  apply bodyParts_congr
  intro body hbody
  exact rendition_succ_alone (h.imp_right fun hkinds => hkinds body hbody)

theorem unparseWith_succ_of_parts {node : Node} {parts : List Rendition} (hkind : node.kind.isParameter = false)
    (h : HasParts (rendition Host.basic (limit + 1) limit) (.ofParent node) (Host.basic node)
      (parts.map (·.mapError (·.atLimit (limit + 1))))) :
    unparseWith Host.basic (limit + 1) node = whole (limit + 1) parts := by
  rw [unparseWith_rendition, rendition, renderNode, hkind, whole, ← inTurn_mapError]
  exact h

end

/-! ## Embedded lists -/

section

variable (limit : Nat) {params : Node} (hparams : params.kind = .args) {body? : Option Node}

include hparams

theorem unparseWith_block {call : Node} (hcall : call.kind ≠ .args) (hlambda : call.kind ≠ .lambda)
    (hbody : ∀ body ∈ body?, body.kind ≠ .args) :
    unparseWith Host.basic (limit + 1) ⟨.block, [.ofNode call, .ofNode params, .ofNode? body?]⟩ =
      whole (limit + 1) ([unparseWith Host.basic limit call, .ok " \x7b"] ++
        listParts " |" params (Emitter.textOf Host.basic limit (visitArgs params .block)) "|" ++
        bodyParts [" "] body? (unparseWith Host.basic limit) ++ [.ok " \x7d"]) := by
  have hconstruct : Enclosing.ofParent ⟨.block, [.ofNode call, .ofNode params, .ofNode? body?]⟩ = .block :=
    if_neg fun h => hlambda (of_decide_eq_true h)
  have hparts : HasParts (rendition Host.basic (limit + 1) limit) .block (Host.renderBlock _) _ :=
    renderBlock_hasParts call params body?
  rw [if_neg hlambda, rendition_succ_alone (Or.inr hcall), rendition_succ_list hparams, bodyParts_succ (Or.inr hbody)]
    at hparts
  apply unparseWith_succ_of_parts rfl
  rw [hconstruct]
  simp only [List.map_append, map_listParts, List.append_assoc]
  exact hparts

theorem unparseWith_lambda {call : Node} (hlambda : call.kind = .lambda) (hbody : ∀ body ∈ body?, body.kind ≠ .args) :
    unparseWith Host.basic (limit + 1) ⟨.block, [.ofNode call, .ofNode params, .ofNode? body?]⟩ =
      whole (limit + 1) ([.ok "->"] ++
        listParts "(" params (Emitter.textOf Host.basic limit (visitArgs params .lambda)) ")" ++ [.ok " \x7b"] ++
        bodyParts [" "] body? (unparseWith Host.basic limit) ++ [.ok " \x7d"]) := by
  have hconstruct : Enclosing.ofParent ⟨.block, [.ofNode call, .ofNode params, .ofNode? body?]⟩ = .lambda :=
    if_pos (decide_eq_true hlambda)
  have hparts : HasParts (rendition Host.basic (limit + 1) limit) .lambda (Host.renderBlock _) _ :=
    renderBlock_hasParts call params body?
  rw [if_pos hlambda, rendition_succ_list hparams, bodyParts_succ (Or.inr hbody)] at hparts
  apply unparseWith_succ_of_parts rfl
  rw [hconstruct]
  simp only [List.cons_append, List.append_assoc] at hparts
  simp only [List.map_append, map_listParts, List.append_assoc]
  exact hparts

theorem unparseWith_method (name : String) :
    unparseWith Host.basic (limit + 1) ⟨.methodDef, [.symbol name, .ofNode params, .ofNode? body?]⟩ =
      whole (limit + 1) ([.ok "def ", .ok name] ++
        listParts "(" params (Emitter.textOf Host.basic limit (visitArgs params .other)) ")" ++
        bodyParts ["\n", "  "] body? (unparseWith Host.basic limit) ++ [.ok "\nend"]) := by
  have hparts : HasParts (rendition Host.basic (limit + 1) limit) .other (Host.renderMethod _) _ :=
    renderMethod_hasParts name params body?
  rw [rendition_succ_list hparams, bodyParts_succ (Or.inl rfl)] at hparts
  apply unparseWith_succ_of_parts rfl
  simp only [List.map_append, map_listParts, List.append_assoc]
  exact hparts

end

/-- **Lists are embedded as they are rendered.** Take any parameter list, and a body that is no list or is missing. A
block is its call, the list between bars as it is rendered in a block, and the body; a lambda literal is the list in
parentheses as it is rendered in a lambda, and the body; a method definition is its name, the list in parentheses as it
is rendered in a definition, and the body on a line of its own. Bars and parentheses are left out with a list that has no
children. Call and body are rendered as on their own, and all parts with one level less than the whole. The first part
that fails decides the error. -/
theorem unparseWith_embeds (limit : Nat) {params : Node} (hparams : params.kind = .args) (body? : Option Node) :
    let alone := unparseWith Host.basic limit
    let list := fun enclosing => Emitter.textOf Host.basic limit (visitArgs params enclosing)
    ((∀ body ∈ body?, body.kind ≠ .args) →
      (∀ call : Node, call.kind ≠ .args → call.kind ≠ .lambda →
        unparseWith Host.basic (limit + 1) ⟨.block, [.ofNode call, .ofNode params, .ofNode? body?]⟩ =
          whole (limit + 1) ([alone call, .ok " \x7b"] ++ listParts " |" params (list .block) "|" ++
            bodyParts [" "] body? alone ++ [.ok " \x7d"])) ∧
      ∀ call : Node, call.kind = .lambda →
        unparseWith Host.basic (limit + 1) ⟨.block, [.ofNode call, .ofNode params, .ofNode? body?]⟩ =
          whole (limit + 1) ([.ok "->"] ++ listParts "(" params (list .lambda) ")" ++ [.ok " \x7b"] ++
            bodyParts [" "] body? alone ++ [.ok " \x7d"])) ∧
    ∀ name, unparseWith Host.basic (limit + 1) ⟨.methodDef, [.symbol name, .ofNode params, .ofNode? body?]⟩ =
      whole (limit + 1) ([.ok "def ", .ok name] ++ listParts "(" params (list .other) ")" ++
        bodyParts ["\n", "  "] body? alone ++ [.ok "\nend"]) := by
  intro alone list
  refine ⟨?_, unparseWith_method limit hparams⟩
  intro hbody
  constructor
  · intro call hcall hlambda
    exact unparseWith_block limit hparams hcall hlambda hbody
  · intro call hlambda
    exact unparseWith_lambda limit hparams hlambda hbody

def plainAndLocal : Node := .ofNodes .args [⟨.arg, [.symbol "a"]⟩, ⟨.shadowarg, [.symbol "s"]⟩]

/-- a call without receiver or arguments -/
def bareCall (name : String) : Node := ⟨.send, [.nil, .symbol name]⟩

/-- The list in a block, a lambda and a method definition, and a block whose parts are too deep for its limit. -/
theorem unparseWith_embeds_plain :
    unparseWith Host.basic 3
      ⟨.block, [.ofNode (bareCall "each"), .ofNode plainAndLocal, .ofNode? (some (bareCall "run"))]⟩ =
      .ok "each \x7b |a, ; s| run \x7d" ∧
    unparseWith Host.basic 3 ⟨.block, [.ofNode (.leaf .lambda), .ofNode plainAndLocal, .ofNode? none]⟩ =
      .ok "->(a; s) \x7b \x7d" ∧
    unparseWith Host.basic 3 ⟨.methodDef, [.symbol "m", .ofNode plainAndLocal, .ofNode? (some (bareCall "run"))]⟩ =
      .ok "def m(a; s)\n  run\nend" ∧
    unparseWith Host.basic 2 ⟨.block, [.ofNode (bareCall "each"), .ofNode plainAndLocal, .ofNode? none]⟩ =
      .error (.depthExceeded 2) := by
  have hbody : ∀ body ∈ some (bareCall "run"), body.kind ≠ .args := by
    rintro body ⟨⟩
    decide
  obtain ⟨hblock, hmethod⟩ := unparseWith_embeds 2 (show plainAndLocal.kind = .args from rfl) (some (bareCall "run"))
  obtain ⟨hlambda, -⟩ := unparseWith_embeds 2 (show plainAndLocal.kind = .args from rfl) none
  obtain ⟨hdeep, -⟩ := unparseWith_embeds 1 (show plainAndLocal.kind = .args from rfl) none
  refine ⟨?_, ?_, ?_, ?_⟩
  · exact ((hblock hbody).1 (bareCall "each") (by decide) (by decide)).trans rfl
  · exact ((hlambda fun _ h => nomatch h).2 (.leaf .lambda) rfl).trans rfl
  · exact (hmethod "m").trans rfl
  · exact ((hdeep fun _ h => nomatch h).1 (bareCall "each") (by decide) (by decide)).trans rfl

end RubySignature
