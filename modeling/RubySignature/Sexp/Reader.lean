/-
Reading trees from s-expression notation.

A text is first taken apart as a whole, so a fault in its notation comes before all else; it is reported by line and
column, both counted from one. After that the tree is built in the order of the text: a node's name before its items, and
one item after the other. The first name that is no kind, or integer that does not fit 64 bits, is the error.
-/
import RubySignature.Sexp.Form
import RubySignature.Tree.Node

namespace RubySignature.Sexp

/-- a place in a text, counted from one -/
structure Position where
  line : Nat
  column : Nat
  deriving DecidableEq, Repr

def Position.after (text : List Char) : Position :=
  ⟨1 + text.count '\n', 1 + (text.reverse.takeWhile (· != '\n')).length⟩

/-- why a text gives no tree -/
inductive ReadError where
  /-- the text breaks the notation -/
  | malformed (position : Position) (expected : Expected)
  | unknownKind (name : String)
  /-- an integer outside the 64-bit range, as it is spelt -/
  | integerRange (spelling : String)
  deriving DecidableEq, Repr

def ReadError.message : ReadError → String
  | malformed position expected =>
    s!"Failure to parse s-expression @ {position.line}/{position.column}: {expected.message}"
  | unknownKind name => s!"Unknown node type: {name}"
  | integerRange spelling => s!"Invalid integer literal: {spelling}"

def Fault.locate (text : List Char) (fault : Fault) : ReadError :=
  .malformed (Position.after (text.take (text.length - fault.rest.length))) fault.expected

/-! ## Building -/

def kindNamed (name : String) : Except ReadError Kind :=
  match Kind.ofName? name with
  | some kind => .ok kind
  | none => .error (.unknownKind name)

def Leaf.toChild : Leaf → Except ReadError Child
  | .symbol name => .ok (.symbol name)
  | .integer spelling =>
    match wordOfDecimal spelling.toList with
    | .ok value => .ok (.int value)
    | .error _ => .error (.integerRange spelling)
  | .float value => .ok (.float value)
  | .str text => .ok (.str text)
  | .nil => .ok .nil

mutual

def Form.toChild : Form → Except ReadError Child
  | .leaf value => value.toChild
  | .node name items => do
    let kind ← kindNamed name
    return .node kind (← Form.toChildren items)

def Form.toChildren : List Form → Except ReadError (List Child)
  | [] => return []
  | item :: later => do
    let child ← item.toChild
    return child :: (← Form.toChildren later)

end

def Group.toNode (group : Group) : Except ReadError Node := do
  let kind ← kindNamed group.name
  return ⟨kind, ← Form.toChildren group.items⟩

def readChars (text : List Char) : Except ReadError Node :=
  match readGroup text with
  | .error fault => .error (fault.locate text)
  | .ok group => group.toNode

def read (text : String) : Except ReadError Node := readChars text.toList

end RubySignature.Sexp
