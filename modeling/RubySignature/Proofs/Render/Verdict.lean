/-
What rendering a tree comes to, without the text.

With the host for Ruby a node is first checked as a whole, and then some of the nodes in it are visited one after the
other until one fails: nothing else can go wrong, and nothing that was written before matters. `verdict` is that course
of things as a function of the tree, the limit, the levels left and the enclosing construct alone, and `descend_verdict`
says that every visit ends in it.

`Node.check` and `Node.visits` are what a node contributes. The check is the one of the tables, with two more faults: a
lambda outside of the call of a block, and forwarding in the list of a block or lambda. Not visited are the lambda that
makes a block a lambda literal, and a parameter list of a block or method that has no children.
-/
import RubySignature.Proofs.Render.Discipline
import RubySignature.Proofs.Render.Failure
import RubySignature.Proofs.Tree.Shapes

namespace RubySignature

/-! ## Checks and visits -/

def allowForwarding (enclosing : Enclosing) (forwards : Bool) : Outcome :=
  if enclosing ≠ .other ∧ forwards then .error (.misplaced .forwardArg enclosing) else .ok ()

namespace Node

def forwards (node : Node) : Bool := node.kind = .args && node.nodes.any (·.kind = .forwardArg)

/-- Fails where the node by itself cannot be rendered inside the given construct. -/
def check (node : Node) (enclosing : Enclosing) : Outcome :=
  if node.kind = .lambda then .error (.unsupported .lambda)
  else
    match node.checkShape with
    | .error error => .error (.shape error)
    | .ok () => allowForwarding enclosing node.forwards

def unlessLambda (node : Node) : List Node := if node.kind = .lambda then [] else [node]

def unlessChildless (node : Node) : List Node := if node.children.isEmpty then [] else [node]

/-- the nodes in a node that are rendered with it, in their order -/
def visits (node : Node) : List Node :=
  match node.kind, node.nodes with
  | .block, call :: params :: body => call.unlessLambda ++ params.unlessChildless ++ body
  | .methodDef, params :: body => params.unlessChildless ++ body
  | _, _ => node.parts

end Node

/-- What rendering a node comes to, with a number of levels left. -/
def verdict (limit : Nat) : Nat → Enclosing → Node → Outcome
  | 0, _, _ => .error (.depthExceeded limit)
  | levels + 1, enclosing, node => do
    node.check enclosing
    forM node.visits (verdict limit levels (.ofParent node))

/-! ## Renderers and their results -/

namespace RenderM

variable {visitor : Visitor} {limit : Nat} {enclosing : Enclosing} {α β : Type}

/-- In a pass with the limit and inside the construct, the renderer ends with the result, and stays there. -/
def Ends (visitor : Visitor) (limit : Nat) (enclosing : Enclosing) (action : RenderM α) (result : Except EmitError α) :
    Prop :=
  ∀ emitter : Emitter, emitter.limit = limit → emitter.enclosing = enclosing →
    ∃ after : Emitter, action.runOn visitor emitter = (result, after) ∧ after.limit = limit ∧
      after.enclosing = enclosing

namespace Ends

theorem pure (value : α) : Ends visitor limit enclosing (Pure.pure value) (.ok value) :=
  fun emitter hlimit henclosing => ⟨emitter, rfl, hlimit, henclosing⟩

theorem throw (error : EmitError) :
    Ends visitor limit enclosing (MonadExcept.throw error : RenderM α) (.error error) :=
  fun emitter hlimit henclosing => ⟨emitter, rfl, hlimit, henclosing⟩

theorem write (token : String) : Ends visitor limit enclosing (write token) (.ok ()) :=
  fun emitter hlimit henclosing => ⟨emitter.write token, rfl, hlimit, henclosing⟩

theorem bind {action : RenderM α} {next : α → RenderM β} {result : Except EmitError α} {later : α → Except EmitError β}
    (h : Ends visitor limit enclosing action result)
    (hnext : ∀ value, Ends visitor limit enclosing (next value) (later value)) :
    Ends visitor limit enclosing (action >>= next) (result >>= later) := by
  intro emitter hlimit henclosing
  obtain ⟨after, hrun, hlimit, henclosing⟩ := h emitter hlimit henclosing
  rw [runOn_bind, hrun]
  cases result with
  | ok value => exact hnext value after hlimit henclosing
  | error error => exact ⟨after, rfl, hlimit, henclosing⟩

theorem seq {action next : RenderM Unit} {result later : Outcome} (h : Ends visitor limit enclosing action result)
    (hnext : Ends visitor limit enclosing next later) :
    Ends visitor limit enclosing (action >>= fun _ => next) (result >>= fun _ => later) :=
  bind h fun _ => hnext

end Ends

/-- The renderer ends as visits of the nodes one after the other do: nothing else in it can fail. -/
def Visits (visitor : Visitor) (limit : Nat) (enclosing : Enclosing) (outcome : Node → Outcome)
    (action : RenderM Unit) (nodes : List Node) : Prop :=
  Ends visitor limit enclosing action (forM nodes outcome)

namespace Visits

variable {outcome : Node → Outcome} {nodes : List Node}

theorem pure : Visits visitor limit enclosing outcome (Pure.pure ()) [] := Ends.pure ()

theorem write (token : String) : Visits visitor limit enclosing outcome (write token) [] := Ends.write token

theorem seq {action next : RenderM Unit} {later : List Node} (h : Visits visitor limit enclosing outcome action nodes)
    (hnext : Visits visitor limit enclosing outcome next later) :
    Visits visitor limit enclosing outcome (action >>= fun _ => next) (nodes ++ later) := by
  unfold Visits
  rw [List.forM_append]
  exact Ends.seq h hnext

theorem parentheses {body : RenderM Unit} (h : Visits visitor limit enclosing outcome body nodes) :
    Visits visitor limit enclosing outcome (parentheses body) nodes := by
  have hall := seq (write "(") (seq h (write ")"))
  rwa [List.nil_append, List.append_nil] at hall

/-- a part that is left out visits nothing -/
theorem given {condition : Bool} {action : RenderM Unit}
    (h : condition = true → Visits visitor limit enclosing outcome action nodes) (hskip : condition = false → nodes = []) :
    Visits visitor limit enclosing outcome (given condition action) nodes := by
  cases condition with
  | true => exact h rfl
  | false =>
    rw [hskip rfl]
    exact pure

theorem writeAll (tokens : List String) : Visits visitor limit enclosing outcome (writeAll tokens) [] := by
  induction tokens with
  | nil => exact pure
  | cons token tokens ih => exact seq (write token) ih

/-- a list that is left out where it has no children -/
theorem unlessChildless {params : Node} {action : RenderM Unit}
    (h : Visits visitor limit enclosing outcome action [params]) :
    Visits visitor limit enclosing outcome (RenderM.given (!params.children.isEmpty) action)
      params.unlessChildless := by
  unfold Node.unlessChildless
  refine given ?_ ?_
  · intro hsome
    rw [if_neg (by simpa using hsome)]
    exact h
  · intro hnone
    rw [if_pos (by simpa using hnone)]

theorem option {node? : Option Node} {action : Node → RenderM Unit}
    (h : ∀ node, Visits visitor limit enclosing outcome (action node) [node]) :
    Visits visitor limit enclosing outcome (node?.forM action) node?.toList := by
  cases node? with
  | none => exact pure
  | some node => exact h node

section

variable (hvisit : ∀ node, Ends visitor limit enclosing (RenderM.visit node) (outcome node))

include hvisit

theorem visit (node : Node) : Visits visitor limit enclosing outcome (RenderM.visit node) [node] := by
  unfold Visits
  rw [List.forM_cons, List.forM_nil, bind_pure_unit]
  exact hvisit node

theorem delimited (nodes : List Node) : Visits visitor limit enclosing outcome (RenderM.delimited nodes) nodes := by
  have hlater (later : List Node) : Visits visitor limit enclosing outcome
      (later.forM fun node => do RenderM.write ", "; RenderM.visit node) later := by
    induction later with
    | nil => exact pure
    | cons node later ih => exact seq (seq (write ", ") (visit hvisit node)) ih
  cases nodes with
  | nil => exact pure
  | cons node later => exact seq (visit hvisit node) (hlater later)

end

end Visits

end RenderM

/-! ## Parameters and the host for Ruby -/

open RenderM

section

variable {visitor : Visitor} {limit : Nat} {inner : Enclosing} {outcome : Node → Outcome}
  (hvisit : ∀ node, Ends visitor limit inner (visit node) (outcome node))

include hvisit

theorem renderSole_visits (content : SoleParam) :
    Visits visitor limit inner outcome (renderSole content) (Param.procarg0 content).nodes := by
  cases content with
  | name name => exact .write name
  | patterns nodes =>
    simp only [renderSole]
    split
    · exact .parentheses (.delimited hvisit nodes)
    · exact .delimited hvisit nodes

theorem renderList_ends (list : ParamList) (outer : Enclosing) :
    Ends visitor limit inner (renderList list outer)
      (allowForwarding outer (list.normal.any (·.kind = .forwardArg)) >>= fun _ =>
        forM (list.normal ++ list.shadow) outcome) := by
  have hrefuse : Ends visitor limit inner (refuseForwarding list outer)
      (allowForwarding outer (list.normal.any (·.kind = .forwardArg))) := by
    unfold refuseForwarding allowForwarding
    split
    · exact .throw _
    · exact .pure ()
  have hcomma : Visits visitor limit inner outcome (given (needsComma list outer) (write ", ")) [] :=
    .given (fun _ => .write ", ") fun _ => rfl
  have hshadow : Visits visitor limit inner outcome
      (given (!list.shadow.isEmpty) (do write "; "; delimited list.shadow)) list.shadow := by
    refine .given (fun _ => .seq (.write "; ") (.delimited hvisit list.shadow)) ?_
    simp
  rw [renderList_eq]
  exact hrefuse.seq (Visits.seq (.delimited hvisit list.normal) (.seq hcomma hshadow))

theorem renderParam_visits {param : Param} (h : ∀ list, param ≠ .args list) (outer : Enclosing) :
    Visits visitor limit inner outcome (renderParam param outer) param.nodes := by
  cases param with
  | args list => exact absurd rfl (h list)
  | arg name | shadowarg name => exact .write name
  | optarg name default | kwoptarg name default => exact .seq (.writeAll _) (.visit hvisit default)
  | kwarg name | restarg name? | kwrestarg name? | blockarg name? => exact .writeAll _
  | kwnilarg | forwardArg => exact .write _
  | blockPass expr? => exact .seq (.write "&") (.option (Visits.visit hvisit))
  | argExpr body => exact .parentheses (.visit hvisit body)
  | procarg0 content => exact renderSole_visits hvisit content
  | mlhs nodes => exact .parentheses (.delimited hvisit nodes)

theorem renderOpening_visits (call params : Node) :
    Visits visitor limit inner outcome (renderOpening call params) (call.unlessLambda ++ params.unlessChildless) := by
  unfold renderOpening Node.unlessLambda
  split
  · have hparams := Visits.unlessChildless (.parentheses (.visit hvisit params))
    have hall := Visits.seq (.write "->") (.seq hparams (.write " \x7b"))
    rwa [List.append_nil] at hall
  · have hparams := Visits.unlessChildless (.seq (.write " |") (.seq (.visit hvisit params) (.write "|")))
    exact .seq (.visit hvisit call) (.seq (.write " \x7b") hparams)

end

/-! Each renderer of the host decodes its node first. -/

namespace Host

def sendParts (node : Node) : Except ShapeError (Option Node × String × List Node) := do
  node.expectCount (.atLeast 2)
  return (← node.optionalNodeAt 0, ← node.symbolAt 1, ← node.nodesFrom 2)

def blockParts (node : Node) : Except ShapeError (Node × Node × Option Node) := do
  node.expectCount (.exactly 3)
  return (← node.nodeAt 0, ← node.nodeAt 1, ← node.optionalNodeAt 2)

def methodParts (node : Node) : Except ShapeError (String × Node × Option Node) := do
  node.expectCount (.exactly 3)
  return (← node.symbolAt 0, ← node.nodeAt 1, ← node.optionalNodeAt 2)

theorem demandsNodes_send (children : List Child) : Node.DemandsNodes ⟨.send, children⟩ 2 where
  sort := fun
    | _ + 2, _ => rfl
  nil := fun
    | _ + 2, _ => rfl
  sole := Or.inl Kind.noConfusion

theorem sendParts_checkShape (children : List Child) :
    (sendParts ⟨.send, children⟩).map (fun (receiver?, _, arguments) => receiver?.toList ++ arguments) =
      (Node.checkShape ⟨.send, children⟩).map fun _ => Node.visits ⟨.send, children⟩ := by
  rcases children with _ | ⟨receiver, _ | ⟨method, arguments⟩⟩
  · rfl
  · rfl
  · have harguments := Node.nodesOf_checkFrom (demandsNodes_send (receiver :: method :: arguments)) arguments
    cases receiver with
    | symbol _ | int _ | float _ | str _ => rfl
    | node kind below =>
      cases method with
      | node _ _ | int _ | float _ | str _ | nil => rfl
      | symbol name =>
        change Except.map _ (Except.bind (Node.nodesOf .send 2 arguments) _) = Except.map _ (Node.checkFrom _ 2 arguments)
        rw [harguments]
        cases Node.checkFrom _ 2 arguments <;> rfl
    | nil =>
      cases method with
      | node _ _ | int _ | float _ | str _ | nil => rfl
      | symbol name =>
        change Except.map _ (Except.bind (Node.nodesOf .send 2 arguments) _) = Except.map _ (Node.checkFrom _ 2 arguments)
        rw [harguments]
        cases Node.checkFrom _ 2 arguments <;> rfl

theorem blockParts_checkShape (children : List Child) :
    (blockParts ⟨.block, children⟩).map
        (fun (call, params, body?) => call.unlessLambda ++ params.unlessChildless ++ body?.toList) =
      (Node.checkShape ⟨.block, children⟩).map fun _ => Node.visits ⟨.block, children⟩ := by
  rcases children with _ | ⟨call, _ | ⟨params, _ | ⟨body, _ | ⟨next, later⟩⟩⟩⟩
  · rfl
  · rfl
  · rfl
  · cases call with
    | symbol _ | int _ | float _ | str _ | nil => rfl
    | node kind below =>
      cases params with
      | symbol _ | int _ | float _ | str _ | nil => rfl
      | node kind below => cases body <;> rfl
  · rfl

theorem methodParts_checkShape (children : List Child) :
    (methodParts ⟨.methodDef, children⟩).map (fun (_, params, body?) => params.unlessChildless ++ body?.toList) =
      (Node.checkShape ⟨.methodDef, children⟩).map fun _ => Node.visits ⟨.methodDef, children⟩ := by
  rcases children with _ | ⟨name, _ | ⟨params, _ | ⟨body, _ | ⟨next, later⟩⟩⟩⟩
  · rfl
  · rfl
  · rfl
  · cases name with
    | node _ _ | int _ | float _ | str _ | nil => rfl
    | symbol name =>
      cases params with
      | symbol _ | int _ | float _ | str _ | nil => rfl
      | node kind below => cases body <;> rfl
  · rfl

theorem renderSend_parts (node : Node) :
    renderSend node = (ofShape (sendParts node) >>= fun (receiver?, method, arguments) => do
      receiver?.forM fun receiver => do visit receiver; write "."
      write method
      given (!arguments.isEmpty) (parentheses (delimited arguments))) := by
  rw [renderSend_eq]
  unfold sendParts
  cases node.expectCount (.atLeast 2) with
  | error error => rfl
  | ok value =>
    cases node.optionalNodeAt 0 with
    | error error => rfl
    | ok receiver? =>
      cases node.symbolAt 1 with
      | error error => rfl
      | ok method => cases node.nodesFrom 2 <;> rfl

theorem renderBlock_parts (node : Node) :
    renderBlock node = (ofShape (blockParts node) >>= fun (call, params, body?) => do
      renderOpening call params
      body?.forM fun body => do write " "; visit body
      write " \x7d") := by
  rw [renderBlock_eq]
  unfold blockParts
  cases node.expectCount (.exactly 3) with
  | error error => rfl
  | ok value =>
    cases node.nodeAt 0 with
    | error error => rfl
    | ok call =>
      cases node.nodeAt 1 with
      | error error => rfl
      | ok params => cases node.optionalNodeAt 2 <;> rfl

theorem renderMethod_parts (node : Node) :
    renderMethod node = (ofShape (methodParts node) >>= fun (name, params, body?) => do
      writeAll ["def ", name]
      given (!params.children.isEmpty) (parentheses (visit params))
      body?.forM fun body => do write "\n"; write "  "; visit body
      write "\nend") := by
  rw [renderMethod_eq]
  unfold methodParts
  cases node.expectCount (.exactly 3) with
  | error error => rfl
  | ok value =>
    cases node.symbolAt 0 with
    | error error => rfl
    | ok name =>
      cases node.nodeAt 1 with
      | error error => rfl
      | ok params => cases node.optionalNodeAt 2 <;> rfl

end Host

/-! ## Nodes -/

section

variable {visitor : Visitor} {limit : Nat} {inner : Enclosing} {outcome : Node → Outcome}

/-- a renderer that decodes its node and then visits the nodes in it -/
theorem ends_of_decode {α : Type} {node : Node} {decoded : Except ShapeError α} {nodes : α → List Node}
    {body : α → RenderM Unit} (hdecode : decoded.map nodes = node.checkShape.map fun _ => node.visits)
    (hbody : ∀ value, decoded = .ok value → Visits visitor limit inner outcome (body value) (nodes value)) :
    Ends visitor limit inner (ofShape decoded >>= body)
      (node.checkShape.mapError .shape >>= fun _ => forM node.visits outcome) := by
  cases decoded with
  | error error =>
    cases hshape : node.checkShape with
    | ok value =>
      rw [hshape] at hdecode
      cases hdecode
    | error other =>
      rw [hshape] at hdecode
      obtain rfl := Except.error.inj hdecode
      exact .throw _
  | ok value =>
    cases hshape : node.checkShape with
    | error error =>
      rw [hshape] at hdecode
      cases hdecode
    | ok checked =>
      rw [hshape] at hdecode
      have hnodes : nodes value = node.visits := Except.ok.inj hdecode
      have hvisits := hbody value rfl
      rw [hnodes] at hvisits
      exact hvisits

theorem check_eq {node : Node} (hlambda : node.kind ≠ .lambda) (hargs : node.kind ≠ .args) (outer : Enclosing) :
    node.check outer = node.checkShape.mapError .shape := by
  have hforwards : node.forwards = false := by
    simp [Node.forwards, hargs]
  unfold Node.check allowForwarding
  rw [if_neg hlambda, hforwards]
  cases node.checkShape with
  | error error => rfl
  | ok => exact if_neg fun h => Bool.false_ne_true h.2

theorem visits_eq_parts {node : Node} (h : node.kind.isParameter = true) : node.visits = node.parts := by
  unfold Node.visits
  split <;> simp_all [Kind.isParameter]

/-- forwarding is no block-local -/
theorem any_forwarding_normal (nodes : List Node) :
    (ParamList.partition nodes).normal.any (·.kind = .forwardArg) = nodes.any (·.kind = .forwardArg) := by
  unfold ParamList.partition
  rw [List.any_filter]
  congr 1
  funext node
  by_cases h : node.kind = .forwardArg <;> simp [h]

variable (hvisit : ∀ node, Ends visitor limit inner (visit node) (outcome node))

include hvisit

theorem renderArgs_ends (children : List Child) (outer : Enclosing) :
    Ends visitor limit inner (ofShape (Param.ofNode ⟨.args, children⟩) >>= fun param => renderParam param outer)
      (Node.check ⟨.args, children⟩ outer >>= fun _ => forM (Node.visits ⟨.args, children⟩) outcome) := by
  have hdemands : Node.DemandsNodes ⟨.args, children⟩ 0 := ⟨fun _ _ => rfl, fun _ _ => rfl, Or.inl Kind.noConfusion⟩
  have hnodes := Node.childNodes_checkShape rfl hdemands
  cases hshape : Node.checkShape ⟨.args, children⟩ with
  | error error =>
    rw [hshape] at hnodes
    have hdecode : Param.ofNode ⟨.args, children⟩ = .error error :=
      congrArg (Except.map fun nodes => Param.args (.partition nodes)) hnodes
    have hcheck : Node.check ⟨.args, children⟩ outer = .error (.shape error) := by
      simp [Node.check, hshape]
    rw [hdecode, hcheck]
    exact .throw _
  | ok value =>
    rw [hshape] at hnodes
    have hdecode : Param.ofNode ⟨.args, children⟩ = .ok (.args (.partition (Node.nodes ⟨.args, children⟩))) :=
      congrArg (Except.map fun nodes => Param.args (.partition nodes)) hnodes
    have hcheck : Node.check ⟨.args, children⟩ outer = allowForwarding outer
        ((ParamList.partition (Node.nodes ⟨.args, children⟩)).normal.any (·.kind = .forwardArg)) := by
      rw [any_forwarding_normal]
      simp [Node.check, Node.forwards, hshape]
    rw [hdecode, hcheck]
    exact renderList_ends hvisit _ outer

theorem renderParameter_ends {node : Node} (h : node.kind.isParameter = true) (outer : Enclosing) :
    Ends visitor limit inner (ofShape (Param.ofNode node) >>= fun param => renderParam param outer)
      (node.check outer >>= fun _ => forM node.visits outcome) := by
  by_cases hargs : node.kind = .args
  · obtain ⟨kind, children⟩ := node
    obtain rfl : kind = .args := hargs
    exact renderArgs_ends hvisit children outer
  · have hlambda : node.kind ≠ .lambda := by
      intro hkind
      rw [hkind] at h
      cases h
    rw [check_eq hlambda hargs]
    refine ends_of_decode (visits_eq_parts h ▸ Param.nodes_ofNode h) fun param hparam => renderParam_visits hvisit ?_ outer
    rintro list rfl
    exact hargs (Param.kind_ofNode h hparam).symm

theorem renderSend_ends (children : List Child) :
    Ends visitor limit inner (Host.renderSend ⟨.send, children⟩)
      ((Node.checkShape ⟨.send, children⟩).mapError .shape >>= fun _ =>
        forM (Node.visits ⟨.send, children⟩) outcome) := by
  rw [Host.renderSend_parts]
  refine ends_of_decode (Host.sendParts_checkShape children) ?_
  rintro ⟨receiver?, method, arguments⟩ -
  have hreceiver : Visits visitor limit inner outcome
      (receiver?.forM fun receiver => do visit receiver; write ".") receiver?.toList :=
    .option fun receiver => .seq (.visit hvisit receiver) (.write ".")
  have harguments : Visits visitor limit inner outcome
      (given (!arguments.isEmpty) (parentheses (delimited arguments))) arguments :=
    .given (fun _ => .parentheses (.delimited hvisit arguments)) (by simp)
  exact .seq hreceiver (.seq (.write method) harguments)

theorem renderBlock_ends (children : List Child) :
    Ends visitor limit inner (Host.renderBlock ⟨.block, children⟩)
      ((Node.checkShape ⟨.block, children⟩).mapError .shape >>= fun _ =>
        forM (Node.visits ⟨.block, children⟩) outcome) := by
  rw [Host.renderBlock_parts]
  refine ends_of_decode (Host.blockParts_checkShape children) ?_
  rintro ⟨call, params, body?⟩ -
  have hbody : Visits visitor limit inner outcome (body?.forM fun body => do write " "; visit body) body?.toList :=
    .option fun body => .seq (.write " ") (.visit hvisit body)
  have hall := Visits.seq (renderOpening_visits hvisit call params) (.seq hbody (.write " \x7d"))
  rwa [List.append_nil] at hall

theorem renderMethod_ends (children : List Child) :
    Ends visitor limit inner (Host.renderMethod ⟨.methodDef, children⟩)
      ((Node.checkShape ⟨.methodDef, children⟩).mapError .shape >>= fun _ =>
        forM (Node.visits ⟨.methodDef, children⟩) outcome) := by
  rw [Host.renderMethod_parts]
  refine ends_of_decode (Host.methodParts_checkShape children) ?_
  rintro ⟨name, params, body?⟩ -
  have hparams := Visits.unlessChildless (.parentheses (.visit hvisit params))
  have hbody : Visits visitor limit inner outcome
      (body?.forM fun body => do write "\n"; write "  "; visit body) body?.toList :=
    .option fun body => .seq (.write "\n") (.seq (.write "  ") (.visit hvisit body))
  have hall := Visits.seq (.writeAll ["def ", name]) (.seq hparams (.seq hbody (.write "\nend")))
  rwa [List.append_nil] at hall

theorem renderArray_ends (children : List Child) :
    Ends visitor limit inner (Host.basic ⟨.array, children⟩)
      ((Node.checkShape ⟨.array, children⟩).mapError .shape >>= fun _ =>
        forM (Node.visits ⟨.array, children⟩) outcome) := by
  have hdemands : Node.DemandsNodes ⟨.array, children⟩ 0 := ⟨fun _ _ => rfl, fun _ _ => rfl, Or.inl Kind.noConfusion⟩
  have hnodes := Node.childNodes_checkShape rfl hdemands
  have hdecode : (Node.childNodes ⟨.array, children⟩).map id =
      (Node.checkShape ⟨.array, children⟩).map fun _ => Node.visits ⟨.array, children⟩ := by
    rw [hnodes]
    cases Node.checkShape ⟨.array, children⟩ <;> rfl
  refine ends_of_decode hdecode fun items _ => ?_
  have hall := Visits.seq (.write "[") (.seq (.delimited hvisit items) (.write "]"))
  rwa [List.append_nil] at hall

/-- the host checks its nodes as the tables have it, and visits the nodes in them -/
theorem host_ends {node : Node} (h : node.kind.isParameter = false) (outer : Enclosing) :
    Ends visitor limit inner (Host.basic node) (node.check outer >>= fun _ => forM node.visits outcome) := by
  obtain ⟨kind, children⟩ := node
  cases kind with
  | args | arg | optarg | restarg | kwarg | kwoptarg | kwrestarg | kwnilarg | forwardArg | blockarg | shadowarg
  | blockPass | argExpr | procarg0 | mlhs => cases h
  | lambda => exact .throw _
  | int | float | str | sym | lvar | ivar =>
    -- the only child is the value
    rw [check_eq Kind.noConfusion Kind.noConfusion]
    rcases children with _ | ⟨child, _ | ⟨next, later⟩⟩
    · exact .throw _
    · cases child <;> first | exact .write _ | exact .throw _
    · cases child <;> exact .throw _
  | nilLiteral | trueLiteral | falseLiteral | selfReference =>
    rw [check_eq Kind.noConfusion Kind.noConfusion]
    rcases children with _ | ⟨child, later⟩
    · exact .write _
    · exact .throw _
  | array =>
    rw [check_eq Kind.noConfusion Kind.noConfusion]
    exact renderArray_ends hvisit children
  | send =>
    rw [check_eq Kind.noConfusion Kind.noConfusion]
    exact renderSend_ends hvisit children
  | block =>
    rw [check_eq Kind.noConfusion Kind.noConfusion]
    exact renderBlock_ends hvisit children
  | methodDef =>
    rw [check_eq Kind.noConfusion Kind.noConfusion]
    exact renderMethod_ends hvisit children

/-- **A node is checked, and then the nodes in it are visited.** -/
theorem renderNode_ends (node : Node) (outer : Enclosing) :
    Ends visitor limit inner (renderNode Host.basic node outer)
      (node.check outer >>= fun _ => forM node.visits outcome) := by
  unfold renderNode
  split
  · rename_i h
    exact renderParameter_ends hvisit h outer
  · rename_i h
    exact host_ends hvisit (by simpa using h) outer

end

/-! ## Passes -/

theorem runOn_visit (visitor : Visitor) (node : Node) (emitter : Emitter) :
    (visit node).runOn visitor emitter = visitor node emitter := rfl

/-- **Every visit ends in its verdict**, by induction on the levels that are left. -/
theorem descend_verdict (limit levels : Nat) (enclosing : Enclosing) (node : Node) :
    Ends (Emitter.descend Host.basic levels) limit enclosing (visit node) (verdict limit levels enclosing node) := by
  induction levels generalizing enclosing node with
  | zero =>
    rintro emitter rfl rfl
    exact ⟨_, rfl, rfl, rfl⟩
  | succ levels ih =>
    rintro emitter rfl rfl
    obtain ⟨inside, hrun, hlimit, -⟩ :=
      renderNode_ends (fun below => ih (.ofParent node) below) node emitter.enclosing (emitter.enter node) rfl rfl
    have hrecord := Keeps.record (inside.leave emitter.enclosing) (verdict emitter.limit (levels + 1) emitter.enclosing node)
    refine ⟨_, ?_, hrecord.limit.trans hlimit, hrecord.enclosing⟩
    have hscript : (renderNode Host.basic node emitter.enclosing).run.run (Emitter.descend Host.basic levels)
        (emitter.enter node) = (verdict emitter.limit (levels + 1) emitter.enclosing node, inside) := hrun
    rw [runOn_visit, Emitter.descend, hscript]

/-- What a whole pass comes to is the verdict on the tree. -/
theorem unparseWith_verdict (limit : Nat) (node : Node) :
    (unparseWith Host.basic limit node).map (fun _ => ()) = verdict limit limit .other node := by
  obtain ⟨after, hrun, -, -⟩ := descend_verdict limit limit .other node (Emitter.start limit) rfl rfl
  have houtcome : (Emitter.visitor Host.basic node (Emitter.start limit)).1 = verdict limit limit .other node :=
    congrArg Prod.fst hrun
  have hpass := passLog_explained Host.basic_eager limit node
  rw [unparseWith_eq_bind]
  rw [houtcome] at hpass ⊢
  cases hverdict : verdict limit limit .other node with
  | error error => rfl
  | ok value =>
    rw [hverdict] at hpass
    rw [Event.outcomeOf, hpass.ok]
    rfl

end RubySignature
