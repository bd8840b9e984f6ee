/-
Syntax trees.

A node has a kind and a list of children. A child is another node or a leaf value: a symbol, a string, a 64-bit integer,
a binary64 number, or the nil leaf. Nodes know nothing of what is above them.

The name of a symbol may be any text. It can be written as a bare symbol if it is an identifier with an optional final `?`,
`!` or `=`, or an identifier behind the sigil of an instance, class or global variable. Every other name needs quotes.
-/
import RubySignature.Double.Basic
import RubySignature.Tree.Kind
import RubySignature.Unicode.Classes

namespace RubySignature

/-- what may stand below a node -/
inductive Child where
  | node (kind : Kind) (children : List Child)
  | symbol (name : String)
  | int (value : Int64)
  | float (value : Double)
  | str (text : String)
  | nil

structure Node where
  kind : Kind
  children : List Child

instance : Inhabited Node := ⟨⟨.nilLiteral, []⟩⟩

/-! ## Children -/

namespace Child

def ofNode (node : Node) : Child := .node node.kind node.children

def node? : Child → Option Node
  | .node kind children => some ⟨kind, children⟩
  | _ => none

def symbol? : Child → Option String
  | .symbol name => some name
  | _ => none

def isNil : Child → Bool
  | .nil => true
  | _ => false

@[simp] theorem node?_ofNode (node : Node) : (ofNode node).node? = some node := rfl

theorem eq_ofNode_of_node? {child : Child} {node : Node} (h : child.node? = some node) : child = ofNode node := by
  cases child with
  | node kind children =>
    obtain rfl := Option.some.inj h
    rfl
  | symbol | int | float | str | nil => cases h

end Child

/-! ## Nodes -/

namespace Node

def leaf (kind : Kind) : Node := ⟨kind, []⟩

def ofNodes (kind : Kind) (nodes : List Node) : Node := ⟨kind, nodes.map Child.ofNode⟩

/-- The first child, if there is one and it is a node. -/
def firstNode? (node : Node) : Option Node := node.children.head?.bind Child.node?

def nodes (node : Node) : List Node := node.children.filterMap Child.node?

end Node

/-! ## Equality

Trees are compared by kind and children, and their numbers as numbers: a tree that holds a NaN is not even equal to
itself, and a zero is equal to a negative zero. -/

mutual

/-- Whether two children are equal, numbers compared as numbers. -/
def Child.agrees : Child → Child → Bool
  | .node k cs, .node l ds => k == l && Child.allAgree cs ds
  | .symbol a, .symbol b => a == b
  | .int a, .int b => a == b
  | .float a, .float b => a.numericEq b
  | .str a, .str b => a == b
  | .nil, .nil => true
  | _, _ => false

def Child.allAgree : List Child → List Child → Bool
  | [], [] => true
  | c :: cs, d :: ds => c.agrees d && Child.allAgree cs ds
  | _, _ => false

end

def Node.agrees (a b : Node) : Bool := a.kind == b.kind && Child.allAgree a.children b.children

/-! ## Names of symbols -/

namespace Symbol

open Unicode

/-- Whether the text is an identifier: a letter or low line, then letters, numbers and low lines. -/
def isIdentifier : List Char → Bool
  | [] => false
  | c :: rest => isNameStart c && rest.all isNameChar

/-- The text without a final `?`, `!` or `=`. -/
def dropMark (name : List Char) : List Char :=
  match name.getLast? with
  | some c => if c == '?' || c == '!' || c == '=' then name.dropLast else name
  | none => name

/-- Whether the name can be written as a bare symbol. -/
def isPlainChars : List Char → Bool
  | '@' :: '@' :: name => isIdentifier name
  | '@' :: name => isIdentifier name
  | '$' :: name => isIdentifier name
  | name => isIdentifier (dropMark name)

def isPlain (name : String) : Bool := isPlainChars name.toList

end Symbol

end RubySignature
