/-
A host for a small part of Ruby: literals, variables, calls, blocks, lambdas and method definitions. That is enough to
embed parameter lists and to write their default values.

A string is written in double quotes with its controls escaped. A `#` that would open an interpolation gets a backslash,
so the text of the string is never run. A symbol is written bare where its name allows it.

A block or method definition checks all its children before it writes anything. Its parameter list is left out together
with the bars or parentheses when it has no children.
-/
import RubySignature.Double.Shortest
import RubySignature.Render.Script

/-! ## Literals -/

namespace RubySignature.Literal

/-- Whether a `#` followed by this character opens an interpolation. -/
def opensInterpolation (c : Char) : Bool := c == '{' || c == '@' || c == '$'

/-- a character as it is written in a string literal, given the character after it -/
def escape (next? : Option Char) : Char → List Char
  | '"' => ['\\', '"']
  | '\\' => ['\\', '\\']
  | '\n' => ['\\', 'n']
  | '\t' => ['\\', 't']
  | '\r' => ['\\', 'r']
  | '\x1b' => ['\\', 'e']
  | '#' => if next?.any opensInterpolation then ['\\', '#'] else ['#']
  | c => [c]

/-- a text as it is written between the quotes of a string literal -/
def body : List Char → List Char
  | [] => []
  | c :: rest => escape rest.head? c ++ body rest

def strChars (text : List Char) : List Char := '"' :: body text ++ ['"']

def symChars (name : List Char) : List Char := ':' :: if Symbol.isPlainChars name then name else strChars name

def str (text : String) : String := String.ofList (strChars text.toList)

def sym (name : String) : String := String.ofList (symChars name.toList)

end RubySignature.Literal

/-! ## Renderers -/

namespace RubySignature.Host

open RenderM

/-- the error of a literal whose only child is not the value it should be -/
def literalError (node : Node) (expected : ChildSort) : ShapeError :=
  match node.children with
  | [_] => node.childTypeError 0 expected
  | _ => node.arityError (.exactly 1)

/-- Renders a call: receiver, method name, arguments. -/
def renderSend (node : Node) : RenderM Unit := do
  ofShape (node.expectCount (.atLeast 2))
  let receiver? ← ofShape (node.optionalNodeAt 0)
  let method ← ofShape (node.symbolAt 1)
  let arguments ← ofShape (node.nodesFrom 2)
  if let some receiver := receiver? then
    visit receiver
    write "."
  write method
  unless arguments.isEmpty do
    parentheses (delimited arguments)

/-- Renders a block or a lambda: call, parameter list, body. -/
def renderBlock (node : Node) : RenderM Unit := do
  ofShape (node.expectCount (.exactly 3))
  let call ← ofShape (node.nodeAt 0)
  let params ← ofShape (node.nodeAt 1)
  let body? ← ofShape (node.optionalNodeAt 2)
  if call.kind = .lambda then
    write "->"
    unless params.children.isEmpty do
      parentheses (visit params)
    write " \x7b"
  else
    visit call
    write " \x7b"
    unless params.children.isEmpty do
      write " |"
      visit params
      write "|"
  if let some body := body? then
    write " "
    visit body
  write " \x7d"

/-- Renders a method definition: name, parameter list, body. -/
def renderMethod (node : Node) : RenderM Unit := do
  ofShape (node.expectCount (.exactly 3))
  let name ← ofShape (node.symbolAt 0)
  let params ← ofShape (node.nodeAt 1)
  let body? ← ofShape (node.optionalNodeAt 2)
  writeAll ["def ", name]
  unless params.children.isEmpty do
    parentheses (visit params)
  if let some body := body? then
    write "\n"
    write "  "
    visit body
  write "\nend"

/-- the host for literals, variables, calls, blocks, lambdas and method definitions -/
def basic : Host := fun node =>
  match node.kind with
  | .int =>
    match node.children with
    | [.int value] => write (String.ofList (intChars value.toInt))
    | _ => throw (.shape (literalError node .integer))
  | .float =>
    match node.children with
    | [.float value] => write (String.ofList value.chars)
    | _ => throw (.shape (literalError node .float))
  | .str =>
    match node.children with
    | [.str text] => write (Literal.str text)
    | _ => throw (.shape (literalError node .string))
  | .sym => do
    ofShape (node.expectCount (.exactly 1))
    write (Literal.sym (← ofShape (node.symbolAt 0)))
  | .lvar | .ivar => do
    ofShape (node.expectCount (.exactly 1))
    write (← ofShape (node.symbolAt 0))
  | .nilLiteral | .trueLiteral | .falseLiteral | .selfReference => do
    ofShape (node.expectCount (.exactly 0))
    write node.kind.name
  | .array => do
    let items ← ofShape node.childNodes
    write "["
    delimited items
    write "]"
  | .send => renderSend node
  | .block => renderBlock node
  | .methodDef => renderMethod node
  | kind => throw (.unsupported kind)

end RubySignature.Host
