/-
Renderers as sequences of steps.

A renderer runs its steps one after the other and stops at the first error (`RenderM.runOn_bind`). The renderers that
have optional parts are put here into the form of such a sequence, with `RenderM.given` for a part that is left out under
a condition, so that what is said of sequences applies to them step by step.
-/
import RubySignature.Render.Unparse

namespace RubySignature

/-! ## Sequences -/

theorem Script.bind_done {α : Type} (script : Script α) : script.bind .done = script := by
  induction script with
  | done value => rfl
  | write token next ih => exact congrArg (Script.write token) ih
  | context next ih => exact congrArg Script.context (funext ih)
  | visit node next ih => exact congrArg (Script.visit node) (funext ih)
  | visitArgs node enclosing next ih => exact congrArg (Script.visitArgs node enclosing) (funext ih)

theorem Script.bind_assoc {α β γ : Type} (script : Script α) (f : α → Script β) (g : β → Script γ) :
    (script.bind f).bind g = script.bind fun value => (f value).bind g := by
  induction script with
  | done value => rfl
  | write token next ih => exact congrArg (Script.write token) ih
  | context next ih => exact congrArg Script.context (funext ih)
  | visit node next ih => exact congrArg (Script.visit node) (funext ih)
  | visitArgs node enclosing next ih => exact congrArg (Script.visitArgs node enclosing) (funext ih)

instance : LawfulMonad Script :=
  LawfulMonad.mk' Script (fun script => script.bind_done) (fun _ _ => rfl) Script.bind_assoc

theorem Script.run_bind {α β : Type} (visitor : Visitor) (script : Script α) (next : α → Script β) (emitter : Emitter) :
    (script.bind next).run visitor emitter =
      (next (script.run visitor emitter).1).run visitor (script.run visitor emitter).2 := by
  induction script generalizing emitter with
  | done value => rfl
  | write token later ih => exact ih _
  | context later ih => exact ih _ _
  | visit node later ih => exact ih _ _
  | visitArgs node enclosing later ih => exact ih _ _

namespace RenderM

variable {α β : Type}

/-- Runs a renderer: its value or the error it ends with, and the emitter after it. -/
def runOn (visitor : Visitor) (action : RenderM α) (emitter : Emitter) : Except EmitError α × Emitter :=
  action.run.run visitor emitter

theorem runOn_bind (visitor : Visitor) (action : RenderM α) (next : α → RenderM β) (emitter : Emitter) :
    (action >>= next).runOn visitor emitter =
      match action.runOn visitor emitter with
      | (.ok value, after) => (next value).runOn visitor after
      | (.error error, after) => (.error error, after) := by
  have h := Script.run_bind visitor action.run (ExceptT.bindCont next) emitter
  change (Script.bind action.run (ExceptT.bindCont next)).run visitor emitter = _
  rw [h]
  unfold runOn
  cases action.run.run visitor emitter with
  | mk result after => cases result <;> rfl

/-- A part that is left out unless the condition holds. -/
def given (condition : Bool) (action : RenderM Unit) : RenderM Unit := if condition then action else pure ()

end RenderM

/-! ## Renderers with optional parts -/

open RenderM

def refuseForwarding (list : ParamList) (enclosing : Enclosing) : RenderM Unit :=
  if enclosing ≠ .other ∧ list.normal.any (·.kind = .forwardArg) then throw (.misplaced .forwardArg enclosing)
  else pure ()

theorem renderList_eq (list : ParamList) (enclosing : Enclosing) :
    renderList list enclosing = (do
      refuseForwarding list enclosing
      delimited list.normal
      given (needsComma list enclosing) (write ", ")
      given (!list.shadow.isEmpty) (do write "; "; delimited list.shadow)) := by
  unfold renderList refuseForwarding given
  by_cases h : enclosing ≠ .other ∧ list.normal.any (·.kind = .forwardArg)
  · simp only [if_pos h]
    rfl
  · simp only [if_neg h]
    cases needsComma list enclosing <;> cases list.shadow.isEmpty <;> simp

/-- A parameter whose children suit its kind is rendered as it is decoded. -/
theorem renderNode_param {host : Host} {node : Node} {param : Param} (hkind : node.kind.isParameter = true)
    (hparam : Param.ofNode node = .ok param) (enclosing : Enclosing) :
    renderNode host node enclosing = renderParam param enclosing := by
  rw [renderNode, if_pos hkind, hparam]
  rfl

theorem renderSend_eq (node : Node) :
    Host.renderSend node = (do
      ofShape (node.expectCount (.atLeast 2))
      let receiver? ← ofShape (node.optionalNodeAt 0)
      let method ← ofShape (node.symbolAt 1)
      let arguments ← ofShape (node.nodesFrom 2)
      receiver?.forM fun receiver => do visit receiver; write "."
      write method
      given (!arguments.isEmpty) (parentheses (delimited arguments))) := by
  unfold Host.renderSend given
  apply bind_congr; intro _
  apply bind_congr; intro receiver?
  apply bind_congr; intro method
  apply bind_congr; intro arguments
  cases receiver? <;> cases arguments <;> simp

/-- The part of a block or lambda before its body. -/
def renderOpening (call params : Node) : RenderM Unit :=
  if call.kind = .lambda then do
    write "->"
    given (!params.children.isEmpty) (parentheses (visit params))
    write " \x7b"
  else do
    visit call
    write " \x7b"
    given (!params.children.isEmpty) (do write " |"; visit params; write "|")

theorem renderBlock_eq (node : Node) :
    Host.renderBlock node = (do
      ofShape (node.expectCount (.exactly 3))
      let call ← ofShape (node.nodeAt 0)
      let params ← ofShape (node.nodeAt 1)
      let body? ← ofShape (node.optionalNodeAt 2)
      renderOpening call params
      body?.forM fun body => do write " "; visit body
      write " \x7d") := by
  unfold Host.renderBlock renderOpening given
  apply bind_congr; intro _
  apply bind_congr; intro call
  apply bind_congr; intro params
  apply bind_congr; intro body?
  by_cases h : call.kind = .lambda <;> cases body? <;> cases params.children <;> simp [h]

theorem renderMethod_eq (node : Node) :
    Host.renderMethod node = (do
      ofShape (node.expectCount (.exactly 3))
      let name ← ofShape (node.symbolAt 0)
      let params ← ofShape (node.nodeAt 1)
      let body? ← ofShape (node.optionalNodeAt 2)
      writeAll ["def ", name]
      given (!params.children.isEmpty) (parentheses (visit params))
      body?.forM fun body => do write "\n"; write "  "; visit body
      write "\nend") := by
  unfold Host.renderMethod given
  apply bind_congr; intro _
  apply bind_congr; intro name
  apply bind_congr; intro params
  apply bind_congr; intro body?
  cases body? <;> cases params.children <;> simp

end RubySignature
