/-
Hosts that pass on failures at once.

An eager renderer that learns of a failed visit does nothing more and ends with the same error. A list that is refused
because it is no parameter list is not a failed visit, so what a renderer makes of that is free. Eagerness is kept by
sequencing, so it can be read off the text of a renderer; the parameters and the host for Ruby have it
(`renderNode_eager`, `Host.basic_eager`).
-/
import RubySignature.Proofs.Render.Steps

namespace RubySignature

/-- whether a script ends with the error of a visit as soon as one fails -/
def Script.Eager {α : Type} : Script (Except EmitError α) → Prop
  | .done _ => True
  | .write _ next => next.Eager
  | .context next => ∀ enclosing, (next enclosing).Eager
  | .visit _ next => (∀ error, next (.error error) = .done (.error error)) ∧ (next (.ok ())).Eager
  | .visitArgs node _ next =>
    (node.kind = .args → ∀ error, next (.error error) = .done (.error error)) ∧ ∀ outcome, (next outcome).Eager

def RenderM.Eager {α : Type} (action : RenderM α) : Prop := Script.Eager action.run

def Host.Eager (host : Host) : Prop := ∀ node, RenderM.Eager (host node)

/-! ## Renderers put together -/

theorem Script.Eager.bindCont {α β : Type} {script : Script (Except EmitError α)} {next : α → RenderM β}
    (h₁ : script.Eager) (h₂ : ∀ value, (next value).Eager) : (script.bind (ExceptT.bindCont next)).Eager := by
  induction script with
  | done result =>
    cases result with
    | ok value => exact h₂ value
    | error error => trivial
  | write token later ih => exact ih h₁
  | context later ih => exact fun enclosing => ih enclosing (h₁ enclosing)
  | visit node later ih =>
    refine ⟨?_, ih _ h₁.2⟩
    intro error
    change (later (.error error)).bind _ = _
    rw [h₁.1 error]
    rfl
  | visitArgs node enclosing later ih =>
    constructor
    · intro hkind error
      change (later (.error error)).bind _ = _
      rw [h₁.1 hkind error]
      rfl
    · intro outcome
      exact ih outcome (h₁.2 outcome)

namespace RenderM.Eager

open RenderM

variable {α β : Type}

theorem pure (value : α) : Eager (Pure.pure value) := trivial

theorem throw (error : EmitError) : Eager (MonadExcept.throw error : RenderM α) := trivial

theorem write (token : String) : Eager (write token) := trivial

theorem visit (node : Node) : Eager (visit node) := ⟨fun _ => rfl, trivial⟩

theorem ofShape (checked : Except ShapeError α) : Eager (ofShape checked) := trivial

theorem bind {action : RenderM α} {next : α → RenderM β} (h₁ : Eager action) (h₂ : ∀ value, Eager (next value)) :
    Eager (action >>= next) :=
  Script.Eager.bindCont h₁ h₂

theorem seq {action : RenderM PUnit} {next : RenderM β} (h₁ : Eager action) (h₂ : Eager next) :
    Eager (action >>= fun _ => next) := bind h₁ fun _ => h₂

theorem forM {items : List α} {action : α → RenderM PUnit} (h : ∀ item, Eager (action item)) :
    Eager (items.forM action) := by
  induction items with
  | nil => exact pure ()
  | cons item items ih => exact seq (h item) ih

theorem writeAll (tokens : List String) : Eager (writeAll tokens) := forM write

theorem delimited (nodes : List Node) : Eager (delimited nodes) := by
  cases nodes with
  | nil => exact pure ()
  | cons node later => exact seq (visit node) (forM fun node => seq (write ", ") (visit node))

theorem parentheses {body : RenderM Unit} (h : Eager body) : Eager (parentheses body) :=
  seq (write "(") (seq h (write ")"))

theorem given (condition : Bool) {action : RenderM Unit} (h : Eager action) : Eager (given condition action) := by
  cases condition
  · exact pure ()
  · exact h

theorem option {item? : Option α} {action : α → RenderM PUnit} (h : ∀ item, Eager (action item)) :
    Eager (item?.forM action) := by
  cases item? with
  | none => exact pure ()
  | some item => exact h item

end RenderM.Eager

/-! ## Parameters and the host for Ruby -/

open RenderM.Eager

theorem renderList_eager (list : ParamList) (enclosing : Enclosing) : (renderList list enclosing).Eager := by
  have hrefuse : (refuseForwarding list enclosing).Eager := by
    unfold refuseForwarding
    split
    · exact throw _
    · exact pure ()
  rw [renderList_eq]
  exact seq hrefuse (seq (delimited _) (seq (given _ (write _)) (given _ (seq (write _) (delimited _)))))

theorem renderSole_eager (content : SoleParam) : (renderSole content).Eager := by
  cases content with
  | name name => exact write name
  | patterns nodes =>
    simp only [renderSole]
    split
    · exact parentheses (delimited nodes)
    · exact delimited nodes

theorem renderParam_eager (param : Param) (enclosing : Enclosing) : (renderParam param enclosing).Eager := by
  cases param with
  | args list => exact renderList_eager list enclosing
  | arg name | shadowarg name => exact write name
  | optarg name default | kwoptarg name default => exact seq (writeAll _) (visit default)
  | kwarg name | restarg name? | kwrestarg name? | blockarg name? => exact writeAll _
  | kwnilarg | forwardArg => exact write _
  | blockPass expr? => exact seq (write "&") (option visit)
  | argExpr body => exact parentheses (visit body)
  | procarg0 content => exact renderSole_eager content
  | mlhs nodes => exact parentheses (delimited nodes)

theorem Host.renderSend_eager (node : Node) : (Host.renderSend node).Eager := by
  rw [renderSend_eq]
  apply bind (ofShape _); intro _
  apply bind (ofShape _); intro receiver?
  apply bind (ofShape _); intro method
  apply bind (ofShape _); intro arguments
  exact seq (option fun receiver => seq (visit receiver) (write ".")) <| seq (write method) <|
    given _ (parentheses (delimited arguments))

theorem renderOpening_eager (call params : Node) : (renderOpening call params).Eager := by
  unfold renderOpening
  split
  · exact seq (write _) (seq (given _ (parentheses (visit params))) (write _))
  · exact seq (visit call) (seq (write _) (given _ (seq (write _) (seq (visit params) (write _)))))

theorem Host.renderBlock_eager (node : Node) : (Host.renderBlock node).Eager := by
  rw [renderBlock_eq]
  apply bind (ofShape _); intro _
  apply bind (ofShape _); intro call
  apply bind (ofShape _); intro params
  apply bind (ofShape _); intro body?
  exact seq (renderOpening_eager call params) (seq (option fun body => seq (write " ") (visit body)) (write _))

theorem Host.renderMethod_eager (node : Node) : (Host.renderMethod node).Eager := by
  rw [renderMethod_eq]
  apply bind (ofShape _); intro _
  apply bind (ofShape _); intro name
  apply bind (ofShape _); intro params
  apply bind (ofShape _); intro body?
  exact seq (writeAll _) <| seq (given _ (parentheses (visit params))) <|
    seq (option fun body => seq (write "\n") (seq (write "  ") (visit body))) (write _)

/-- **The host for Ruby is eager.** -/
theorem Host.basic_eager : Host.basic.Eager := by
  rintro ⟨kind, children⟩
  cases kind with
  | int | float | str =>
    simp only [Host.basic]
    split
    · exact write _
    · exact throw _
  | sym | lvar | ivar => exact bind (ofShape _) fun _ => bind (ofShape _) fun name => write _
  | nilLiteral | trueLiteral | falseLiteral | selfReference => exact bind (ofShape _) fun _ => write _
  | array => exact bind (ofShape _) fun items => seq (write _) (seq (delimited items) (write _))
  | send => exact Host.renderSend_eager _
  | block => exact Host.renderBlock_eager _
  | methodDef => exact Host.renderMethod_eager _
  | _ => exact throw _

/-- With an eager host every node has an eager renderer. -/
theorem renderNode_eager {host : Host} (h : host.Eager) (node : Node) (enclosing : Enclosing) :
    (renderNode host node enclosing).Eager := by
  unfold renderNode
  split
  · exact bind (ofShape _) fun param => renderParam_eager param enclosing
  · exact h node

end RubySignature
