/-
Parameter lists and parameter nodes, decoded.

A parameter list is written differently between the bars of a block, in a lambda and in a method definition. Only the node
directly above the list decides which it is (`Enclosing.ofParent`).

`Param.ofNode` checks the children of a parameter node against what its kind demands and gives them names. A count
outside the range is reported before any child is looked at, then the first child of the wrong sort. A parameter list
splits into ordinary parameters and block-locals, each in their order.
-/
import RubySignature.Tree.Shape

namespace RubySignature

/-! ## What a list belongs to -/

/-- the construct around a parameter list -/
inductive Enclosing where
  /-- a block literal, whose list stands between bars -/
  | block
  /-- a lambda literal -/
  | lambda
  /-- a method definition, or nothing that owns parameters -/
  | other
  deriving DecidableEq, Repr

namespace Enclosing

/-- The construct a node is for its children: a block whose call is a lambda makes a lambda literal. -/
def ofParent (parent : Node) : Enclosing :=
  if parent.kind = .block then
    if parent.firstNode?.any (·.kind = .lambda) then .lambda else .block
  else .other

def isBlockLiteral (enclosing : Enclosing) : Bool := enclosing == .block

def name : Enclosing → String
  | block => "Block"
  | lambda => "Lambda"
  | other => "Other"

end Enclosing

/-! ## Views -/

structure ParamList where
  normal : List Node
  shadow : List Node

namespace ParamList

/-- Splits parameters into the ordinary ones and the block-locals. -/
def partition (nodes : List Node) : ParamList :=
  ⟨nodes.filter (·.kind ≠ .shadowarg), nodes.filter (·.kind = .shadowarg)⟩

def isEmpty (list : ParamList) : Bool := list.normal.isEmpty && list.shadow.isEmpty

end ParamList

/-- the content of the sole parameter of a block -/
inductive SoleParam where
  /-- a name without a node of its own -/
  | name (name : String)
  | patterns (nodes : List Node)

inductive Param where
  | args (list : ParamList)
  | arg (name : String)
  | shadowarg (name : String)
  | optarg (name : String) (default : Node)
  | kwarg (name : String)
  | kwoptarg (name : String) (default : Node)
  | restarg (name? : Option String)
  | kwrestarg (name? : Option String)
  | kwnilarg
  | forwardArg
  | blockarg (name? : Option String)
  | blockPass (expr? : Option Node)
  | argExpr (body : Node)
  | procarg0 (content : SoleParam)
  | mlhs (nodes : List Node)

/-! ## Decoding -/

namespace Node

def soleSymbol (node : Node) : Except ShapeError String := do
  node.expectCount (.exactly 1)
  node.symbolAt 0

def nameAndDefault (node : Node) : Except ShapeError (String × Node) := do
  node.expectCount (.exactly 2)
  return (← node.symbolAt 0, ← node.nodeAt 1)

/-- The name that is the only child, if there is one: no child and a nil both stand for no name. -/
def soleOptionalSymbol (node : Node) : Except ShapeError (Option String) := do
  node.expectCount .atMostOne
  match node.children with
  | [] | [.nil] => return none
  | _ => return some (← node.symbolAt 0)

/-- The node that is the only child, if there is one: no child and a nil both stand for no node. -/
def soleOptionalNode (node : Node) : Except ShapeError (Option Node) := do
  node.expectCount .atMostOne
  match node.children with
  | [] | [.nil] => return none
  | _ => return some (← node.nodeAt 0)

/-- The children, of which there is at least one, and all are nodes. -/
def nonEmptyNodes (node : Node) : Except ShapeError (List Node) := do
  node.expectCount (.atLeast 1)
  node.childNodes

end Node

def Param.ofNode (node : Node) : Except ShapeError Param :=
  match node.kind with
  | .args => return .args (.partition (← node.childNodes))
  | .arg => return .arg (← node.soleSymbol)
  | .shadowarg => return .shadowarg (← node.soleSymbol)
  | .kwarg => return .kwarg (← node.soleSymbol)
  | .optarg => do
    let (name, default) ← node.nameAndDefault
    return .optarg name default
  | .kwoptarg => do
    let (name, default) ← node.nameAndDefault
    return .kwoptarg name default
  | .restarg => return .restarg (← node.soleOptionalSymbol)
  | .kwrestarg => return .kwrestarg (← node.soleOptionalSymbol)
  | .blockarg => return .blockarg (← node.soleOptionalSymbol)
  | .kwnilarg => do
    node.expectCount (.exactly 0)
    return .kwnilarg
  | .forwardArg => do
    node.expectCount (.exactly 0)
    return .forwardArg
  | .blockPass => return .blockPass (← node.soleOptionalNode)
  | .argExpr => do
    node.expectCount (.exactly 1)
    return .argExpr (← node.nodeAt 0)
  | .procarg0 =>
    match node.children with
    | [.symbol name] => return .procarg0 (.name name)
    | _ => return .procarg0 (.patterns (← node.nonEmptyNodes))
  | .mlhs => return .mlhs (← node.nonEmptyNodes)
  | kind => throw (.notParameter kind)

end RubySignature
