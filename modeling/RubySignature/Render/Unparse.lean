/-
Rendering a tree as text in one pass.

An `Emitter` holds the text written so far, which only ever grows at its end, how deep in the tree it is, what the node in
hand stands inside of, and the first failure of any visit. `Emitter.descend` renders a node with a given number of levels
left: a parameter is decoded and rendered here, every other node is handed to the host, and both act through a script.
Depth and enclosing construct are set on the way into a node and put back on the way out, whatever the outcome. Each level
down uses up one of the levels left, so the recursion is on their number.

A whole pass is over a tree, or over a parameter list inside a given construct. A pass that has seen a failing visit never
hands out its text, even if a renderer ignored the failure.
-/
import RubySignature.Render.Host
import RubySignature.Render.Params

namespace RubySignature

/-! ## The text written so far -/

structure Output where
  text : String := ""
  deriving DecidableEq, Repr

namespace Output

def write (output : Output) (token : String) : Output := ⟨output.text ++ token⟩

def writeAll (output : Output) (tokens : List String) : Output := tokens.foldl write output

/-- the length of the text in UTF-8 bytes -/
def byteLength (output : Output) : Nat := output.text.utf8ByteSize

/-- Whether nothing but empty tokens has been written. -/
def isEmpty (output : Output) : Bool := output.byteLength == 0

theorem text_writeAll (output : Output) (tokens : List String) :
    (output.writeAll tokens).text = tokens.foldl (· ++ ·) output.text := by
  induction tokens generalizing output with
  | nil => rfl
  | cons token tokens ih => exact ih _

end Output

/-! ## The emitter -/

/-- the state of a rendering pass -/
structure Emitter where
  /-- how many nodes may be nested in one another -/
  limit : Nat
  /-- how many nodes the pass is inside of -/
  depth : Nat := 0
  /-- what the node in hand stands inside of -/
  enclosing : Enclosing := .other
  output : Output := {}
  /-- the error of the first visit that failed -/
  failure : Option EmitError := none
  deriving DecidableEq, Repr

namespace Emitter

def start (limit : Nat) : Emitter := { limit }

def write (emitter : Emitter) (token : String) : Emitter := { emitter with output := emitter.output.write token }

@[simp] theorem text_write (emitter : Emitter) (token : String) :
    (emitter.write token).output.text = emitter.output.text ++ token := rfl

/-- Keeps the error of a failed visit, unless there is one already. -/
def record (emitter : Emitter) : Outcome → Emitter
  | .ok () => emitter
  | .error error => { emitter with failure := emitter.failure.or (some error) }

def enter (emitter : Emitter) (node : Node) : Emitter :=
  { emitter with depth := emitter.depth + 1, enclosing := .ofParent node }

def leave (emitter : Emitter) (enclosing : Enclosing) : Emitter :=
  { emitter with depth := emitter.depth - 1, enclosing }

/-- The text of the pass, or the error of the first visit that failed. -/
def finish (emitter : Emitter) : Except EmitError String :=
  match emitter.failure with
  | some error => .error error
  | none => .ok emitter.output.text

end Emitter

/-! ## Running scripts -/

/-- how a node is rendered, as a step of the emitter -/
abbrev Visitor := Node → Emitter → Outcome × Emitter

/-- Renders a parameter list as if it stood directly in the given construct. A node of another kind is refused, and the
refusal is not recorded as a failed visit. -/
def Visitor.visitArgs (visitor : Visitor) (node : Node) (enclosing : Enclosing) (emitter : Emitter) :
    Outcome × Emitter :=
  if node.kind = .args then
    let (outcome, after) := visitor node { emitter with enclosing }
    (outcome, { after with enclosing := emitter.enclosing })
  else (.error (.unexpectedNode .args node.kind), emitter)

def Script.run {α : Type} (visitor : Visitor) : Script α → Emitter → α × Emitter
  | .done value, emitter => (value, emitter)
  | .write token next, emitter => next.run visitor (emitter.write token)
  | .context next, emitter => (next emitter.enclosing).run visitor emitter
  | .visit node next, emitter =>
    let (outcome, emitter) := visitor node emitter
    (next outcome).run visitor emitter
  | .visitArgs node enclosing next, emitter =>
    let (outcome, emitter) := visitor.visitArgs node enclosing emitter
    (next outcome).run visitor emitter

/-- What is done for a node that stands inside `enclosing`. -/
def renderNode (host : Host) (node : Node) (enclosing : Enclosing) : RenderM Unit :=
  if node.kind.isParameter then do
    let param ← RenderM.ofShape (Param.ofNode node)
    renderParam param enclosing
  else host node

namespace Emitter

/-- Renders a node and everything under it, with a number of levels left. -/
def descend (host : Host) : Nat → Visitor
  | 0, _, emitter =>
    let outcome := .error (.depthExceeded emitter.limit)
    (outcome, emitter.record outcome)
  | levels + 1, node, emitter =>
    let (outcome, inside) := (renderNode host node emitter.enclosing).run.run (descend host levels) (emitter.enter node)
    (outcome, (inside.leave emitter.enclosing).record outcome)

def visitor (host : Host) : Visitor := fun node emitter => descend host (emitter.limit - emitter.depth) node emitter

def perform (emitter : Emitter) (host : Host) (action : RenderM Unit) : Outcome × Emitter :=
  action.run.run (visitor host) emitter

end Emitter

/-! ## Whole passes -/

/-- how many nodes may be nested unless a pass says otherwise -/
def defaultLimit : Nat := 256

/-- The text of a pass that does one thing, or why it has none. -/
def Emitter.textOf (host : Host) (limit : Nat) (action : RenderM Unit) : Except EmitError String :=
  let (outcome, emitter) := (Emitter.start limit).perform host action
  outcome.bind fun () => emitter.finish

/-- The tree as text, rendered with the given host and limit. -/
def unparseWith (host : Host) (limit : Nat) (node : Node) : Except EmitError String :=
  Emitter.textOf host limit (RenderM.visit node)

def unparse (node : Node) : Except EmitError String := unparseWith Host.basic defaultLimit node

/-- The parameter list as text, without the bars or parentheses around it. -/
def unparseArgs (node : Node) (enclosing : Enclosing) : Except EmitError String :=
  Emitter.textOf Host.basic defaultLimit (RenderM.visitArgs node enclosing)

end RubySignature
