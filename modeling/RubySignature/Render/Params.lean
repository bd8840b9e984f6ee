/-
Rendering parameters.

Between the bars of a block, a lone bare name is a sole parameter that destructures what it is given, and the same name
with a comma after it is a plain one. So a lone plain parameter of a block gets a comma, and a sole parameter gets its
parentheses back exactly where they were more than a name. Block-locals come last, after a semicolon.
-/
import RubySignature.Param.View
import RubySignature.Render.Script

namespace RubySignature

open RenderM

/-- Whether the list needs a comma after its only ordinary parameter. -/
def needsComma (list : ParamList) (enclosing : Enclosing) : Bool :=
  enclosing.isBlockLiteral &&
    match list.normal with
    | [node] => node.kind = .arg
    | _ => false

def needsParentheses (patterns : List Node) : Bool :=
  1 < patterns.length || patterns.any fun node => node.kind = .restarg || node.kind = .mlhs

def renderList (list : ParamList) (enclosing : Enclosing) : RenderM Unit := do
  if enclosing ≠ .other ∧ list.normal.any (·.kind = .forwardArg) then
    throw (.misplaced .forwardArg enclosing)
  delimited list.normal
  if needsComma list enclosing then
    write ", "
  unless list.shadow.isEmpty do
    write "; "
    delimited list.shadow

def renderSole : SoleParam → RenderM Unit
  | .name name => write name
  | .patterns nodes => if needsParentheses nodes then parentheses (delimited nodes) else delimited nodes

def renderParam (param : Param) (enclosing : Enclosing) : RenderM Unit :=
  match param with
  | .args list => renderList list enclosing
  | .arg name | .shadowarg name => write name
  | .optarg name default => do
    writeAll [name, " = "]
    visit default
  | .kwarg name => writeAll [name, ":"]
  | .kwoptarg name default => do
    writeAll [name, ": "]
    visit default
  | .restarg name? => writeAll ["*", name?.getD ""]
  | .kwrestarg name? => writeAll ["**", name?.getD ""]
  | .kwnilarg => write "**nil"
  | .forwardArg => write "..."
  | .blockarg name? => writeAll ["&", name?.getD ""]
  | .blockPass expr? => do
    write "&"
    expr?.forM visit
  | .argExpr body => parentheses (visit body)
  | .procarg0 content => renderSole content
  | .mlhs nodes => parentheses (delimited nodes)

end RubySignature
