/-
What a kind demands of its children, and how a node can fall short of it.

A node can have the wrong number of children, a child of the wrong sort, or a kind that is no parameter at all. The
checks here are the only source of these failures: a count is checked against a `Count`, and a child is fetched by its
place together with its sort.
-/
import RubySignature.Tree.Node

namespace RubySignature

/-- a range of child counts, with the phrase that names it in messages -/
structure Count where
  low : Nat
  high : Option Nat
  phrase : String
  deriving DecidableEq, Repr

namespace Count

def holds (count : Count) (found : Nat) : Bool := count.low ≤ found && count.high.all (found ≤ ·)

def exactly (n : Nat) : Count := ⟨n, some n, toString n⟩

def atMostOne : Count := ⟨0, some 1, "0 or 1"⟩

def atLeast (n : Nat) : Count := ⟨n, none, s!"at least {n}"⟩

end Count

inductive ChildSort where
  | symbol
  | node
  | integer
  | float
  | string
  deriving DecidableEq, Repr

def ChildSort.phrase : ChildSort → String
  | symbol => "a symbol"
  | node => "a node"
  | integer => "an integer"
  | float => "a float"
  | string => "a string"

/-- why the children of a node do not suit its kind -/
inductive ShapeError where
  /-- the number of children lies outside the range named `expected` -/
  | arity (kind : Kind) (expected : String) (found : Nat)
  /-- the child at `index` is missing or not of the sort -/
  | childType (kind : Kind) (index : Nat) (expected : ChildSort)
  /-- the kind is not a parameter kind -/
  | notParameter (kind : Kind)
  deriving DecidableEq, Repr

def ShapeError.message : ShapeError → String
  | arity kind expected found => s!"{kind.name} expects {expected} children, found {found}"
  | childType kind index expected => s!"{kind.name} child {index} must be {expected.phrase}"
  | notParameter kind => s!"{kind.name} is not an argument node"

namespace Node

def childTypeError (node : Node) (index : Nat) (expected : ChildSort) : ShapeError :=
  .childType node.kind index expected

def arityError (node : Node) (count : Count) : ShapeError := .arity node.kind count.phrase node.children.length

def expectCount (node : Node) (count : Count) : Except ShapeError Unit :=
  if count.holds node.children.length then .ok () else .error (node.arityError count)

/-- The name at a place, where the kind wants a symbol. -/
def symbolAt (node : Node) (index : Nat) : Except ShapeError String :=
  match node.children[index]?.bind Child.symbol? with
  | some name => .ok name
  | none => .error (node.childTypeError index .symbol)

/-- The node at a place, where the kind wants a node. -/
def nodeAt (node : Node) (index : Nat) : Except ShapeError Node :=
  match node.children[index]?.bind Child.node? with
  | some child => .ok child
  | none => .error (node.childTypeError index .node)

/-- The node at a place, where the kind wants a node or nil. -/
def optionalNodeAt (node : Node) (index : Nat) : Except ShapeError (Option Node) :=
  match node.children[index]? with
  | some .nil => .ok none
  | _ => (node.nodeAt index).map some

/-- The nodes among children that must all be nodes; `index` is the place of the first of them. -/
def nodesOf (kind : Kind) (index : Nat) : List Child → Except ShapeError (List Node)
  | [] => .ok []
  | child :: later =>
    match child.node? with
    | some node => (nodesOf kind (index + 1) later).map (node :: ·)
    | none => .error (.childType kind index .node)

/-- The children from a place on, where the kind wants nodes only. -/
def nodesFrom (node : Node) (start : Nat) : Except ShapeError (List Node) :=
  nodesOf node.kind start (node.children.drop start)

def childNodes (node : Node) : Except ShapeError (List Node) := node.nodesFrom 0

end Node

end RubySignature
