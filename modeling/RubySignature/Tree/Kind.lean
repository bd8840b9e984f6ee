/-
The kinds of syntax tree nodes, with their written names.

The first fifteen are the parameter kinds, which make up parameter lists and the arguments passed through them. The
others are the code around a list: what owns it, and what its default values are written with.
-/
namespace RubySignature

inductive Kind where
  /-- parameter list of a method, block or lambda -/
  | args
  /-- required positional parameter -/
  | arg
  /-- positional parameter with a default value -/
  | optarg
  /-- positional splat, possibly anonymous -/
  | restarg
  /-- required keyword parameter -/
  | kwarg
  /-- keyword parameter with a default value -/
  | kwoptarg
  /-- keyword splat, possibly anonymous -/
  | kwrestarg
  /-- marker that no keywords are accepted -/
  | kwnilarg
  /-- forwarding of all arguments -/
  | forwardArg
  /-- block parameter, possibly anonymous -/
  | blockarg
  /-- block-local variable -/
  | shadowarg
  /-- block passed on in a call -/
  | blockPass
  /-- parenthesized expression in the place of a parameter -/
  | argExpr
  /-- sole, possibly destructured, parameter of a block -/
  | procarg0
  /-- nested destructuring pattern -/
  | mlhs
  | block
  | lambda
  | methodDef
  | send
  | lvar
  | ivar
  | int
  | float
  | str
  | sym
  | array
  | nilLiteral
  | trueLiteral
  | falseLiteral
  | selfReference
  deriving DecidableEq, Repr

namespace Kind

def name : Kind → String
  | args => "args"
  | arg => "arg"
  | optarg => "optarg"
  | restarg => "restarg"
  | kwarg => "kwarg"
  | kwoptarg => "kwoptarg"
  | kwrestarg => "kwrestarg"
  | kwnilarg => "kwnilarg"
  | forwardArg => "forward_arg"
  | blockarg => "blockarg"
  | shadowarg => "shadowarg"
  | blockPass => "block_pass"
  | argExpr => "arg_expr"
  | procarg0 => "procarg0"
  | mlhs => "mlhs"
  | block => "block"
  | lambda => "lambda"
  | methodDef => "def"
  | send => "send"
  | lvar => "lvar"
  | ivar => "ivar"
  | int => "int"
  | float => "float"
  | str => "str"
  | sym => "sym"
  | array => "array"
  | nilLiteral => "nil"
  | trueLiteral => "true"
  | falseLiteral => "false"
  | selfReference => "self"

def all : List Kind :=
  [args, arg, optarg, restarg, kwarg, kwoptarg, kwrestarg, kwnilarg, forwardArg, blockarg, shadowarg, blockPass, argExpr,
   procarg0, mlhs, block, lambda, methodDef, send, lvar, ivar, int, float, str, sym, array, nilLiteral, trueLiteral,
   falseLiteral, selfReference]

def ofName? (text : String) : Option Kind := all.find? fun kind => kind.name == text

/-- Whether the kind belongs to parameter lists. -/
def isParameter : Kind → Bool
  | args | arg | optarg | restarg | kwarg | kwoptarg | kwrestarg | kwnilarg | forwardArg | blockarg | shadowarg
  | blockPass | argExpr | procarg0 | mlhs => true
  | _ => false

theorem ofName?_name (kind : Kind) : ofName? kind.name = some kind := by
  cases kind <;> rfl

theorem name_of_ofName? {text : String} {kind : Kind} (h : ofName? text = some kind) : kind.name = text := by
  simpa using List.find?_some h

end Kind

end RubySignature
