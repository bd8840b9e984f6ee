/-
Trees in s-expression notation, on one line: `(optarg :a (int 1))`.

A node is its kind and its children between parentheses, with single blanks in between. A symbol is bare where its name
allows it and in quotes where not.
-/
import RubySignature.Double.Shortest
import RubySignature.Sexp.Quoted
import RubySignature.Tree.Node

namespace RubySignature

def symbolChars (name : String) : List Char :=
  ':' :: if Symbol.isPlain name then name.toList else Quoted.chars name.toList

mutual

def Child.chars : Child → List Char
  | .node kind children => '(' :: kind.name.toList ++ Child.spacedChars children ++ [')']
  | .symbol name => symbolChars name
  | .int value => intChars value.toInt
  | .float value => value.chars
  | .str text => Quoted.chars text.toList
  | .nil => ['n', 'i', 'l']

/-- children in s-expression notation, each after a blank -/
def Child.spacedChars : List Child → List Char
  | [] => []
  | child :: later => ' ' :: child.chars ++ Child.spacedChars later

end

def Child.text (child : Child) : String := String.ofList child.chars

def Node.chars (node : Node) : List Char := '(' :: node.kind.name.toList ++ Child.spacedChars node.children ++ [')']

def Node.text (node : Node) : String := String.ofList node.chars

@[simp] theorem Child.chars_ofNode (node : Node) : (Child.ofNode node).chars = node.chars := by
  simp [Child.ofNode, Child.chars, Node.chars]

end RubySignature
