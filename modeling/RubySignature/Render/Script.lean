/-
What a renderer may do.

A renderer writes tokens, asks what the node in hand is inside of, and has other nodes rendered, learning of each whether
that failed. A `Script` is such a course of action as data: it cannot reach the text already written, the depth or the
recorded failure, so what every renderer keeps can be shown by induction on scripts. `RenderM` adds an error that ends
the script early; a script may also look at the outcome of a visit and carry on. Each of the errors means that the tree is
malformed, too deep, or outside what the host can render.
-/
import RubySignature.Param.View

namespace RubySignature

/-! ## Errors -/

/-- why a node cannot be rendered -/
inductive EmitError where
  /-- the children do not suit the kind -/
  | shape (error : ShapeError)
  /-- a node of another kind was demanded -/
  | unexpectedNode (expected found : Kind)
  /-- a parameter that the construct around its list does not allow -/
  | misplaced (kind : Kind) (enclosing : Enclosing)
  /-- a kind the host does not know -/
  | unsupported (kind : Kind)
  /-- more nested nodes than the limit allows -/
  | depthExceeded (limit : Nat)
  deriving DecidableEq, Repr

def EmitError.message : EmitError → String
  | shape error => s!"Malformed node: {error.message}"
  | unexpectedNode expected found => s!"Expected a {expected.name} node, found {found.name}"
  | misplaced kind enclosing => s!"{kind.name} cannot appear in a {enclosing.name} parameter list"
  | unsupported kind => s!"No renderer for node type: {kind.name}"
  | depthExceeded limit => s!"Node nesting exceeds the maximum depth of {limit}"

/-! ## Scripts -/

/-- whether rendering a node succeeded -/
abbrev Outcome := Except EmitError Unit

/-- a course of rendering actions that ends in a value -/
inductive Script (α : Type) where
  | done (value : α)
  /-- write a token -/
  | write (token : String) (next : Script α)
  /-- ask for the construct around the children of the node in hand -/
  | context (next : Enclosing → Script α)
  /-- have a node rendered -/
  | visit (node : Node) (next : Outcome → Script α)
  /-- have a parameter list rendered as if it stood directly in the given construct -/
  | visitArgs (node : Node) (enclosing : Enclosing) (next : Outcome → Script α)

namespace Script

variable {α β : Type}

def bind : Script α → (α → Script β) → Script β
  | .done value, f => f value
  | .write token next, f => .write token (next.bind f)
  | .context next, f => .context fun enclosing => (next enclosing).bind f
  | .visit node next, f => .visit node fun outcome => (next outcome).bind f
  | .visitArgs node enclosing next, f => .visitArgs node enclosing fun outcome => (next outcome).bind f

instance : Monad Script where
  pure := .done
  bind := Script.bind

end Script

/-- a script that may end early with an error -/
abbrev RenderM := ExceptT EmitError Script

/-- a renderer for the kinds that are no parameters -/
abbrev Host := Node → RenderM Unit

namespace RenderM

variable {α : Type}

def write (token : String) : RenderM Unit := ExceptT.mk (.write token (.done (.ok ())))

def writeAll (tokens : List String) : RenderM Unit := tokens.forM write

/-- The construct around the children of the node in hand. -/
def context : RenderM Enclosing := ExceptT.mk (.context fun enclosing => .done (.ok enclosing))

def visit (node : Node) : RenderM Unit := ExceptT.mk (.visit node .done)

/-- Has a parameter list rendered as if it stood directly in the given construct. -/
def visitArgs (node : Node) (enclosing : Enclosing) : RenderM Unit := ExceptT.mk (.visitArgs node enclosing .done)

def delimited : List Node → RenderM Unit
  | [] => return
  | node :: later => do
    visit node
    later.forM fun node => do
      write ", "
      visit node

def parentheses (body : RenderM Unit) : RenderM Unit := do
  write "("
  body
  write ")"

/-- Ends early where the children of a node do not suit its kind. -/
def ofShape (checked : Except ShapeError α) : RenderM α := ExceptT.mk (.done (checked.mapError .shape))

end RenderM

end RubySignature
