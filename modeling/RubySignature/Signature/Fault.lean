/-
Why a text is no parameter list.

A `Fault` arises at a place in the text and keeps what is left from there on. A `ReadError` is the same with the place
counted in characters from the start.
-/
import RubySignature.Decimal
import RubySignature.Unicode.Visible

namespace RubySignature.Signature

/-- what should have stood at a place -/
inductive Wanted where
  | name
  | pattern
  | soleSplat
  | patternEnd
  | closingQuote
  | escaped
  | otherThanForwarding
  | signatureOrder
  | afterComma
  | endOfText
  deriving DecidableEq, Repr

def Wanted.phrase : Wanted → String
  | name => "an identifier"
  | pattern => "a name, nested pattern or splat"
  | soleSplat => "at most one splat in a pattern"
  | patternEnd => "`,` or `)`"
  | closingQuote => "a closing quote"
  | escaped => "an escape"
  | otherThanForwarding => "a parameter other than `...` outside a method definition"
  | signatureOrder => "parameters in signature order"
  | afterComma => "a parameter after the trailing comma"
  | endOfText => "end of input"

/-- a place where reading stops -/
inductive Fault where
  /-- something else was wanted where `rest` begins -/
  | expected (wanted : Wanted) (rest : List Char)
  /-- an integer that is none, or does not fit 64 bits -/
  | integer (spelling : List Char) (fault : IntegerFault)
  deriving DecidableEq, Repr

/-- why a text is no parameter list -/
inductive ReadError where
  | expected (wanted : Wanted) (position : Nat) (rest : List Char)
  | integer (spelling : List Char) (fault : IntegerFault)
  deriving DecidableEq, Repr

/-- The fault with its place in a text of the given length. -/
def Fault.locate (length : Nat) : Fault → ReadError
  | expected wanted rest => .expected wanted (length - rest.length) rest
  | integer spelling fault => .integer spelling fault

def integerReason : IntegerFault → String
  | .notDigits => "invalid digit found in string"
  | .tooLarge => "number too large to fit in target type"
  | .tooSmall => "number too small to fit in target type"

def ReadError.message : ReadError → String
  | expected wanted position rest =>
    s!"expected {wanted.phrase} at {position}, found {Unicode.visible rest}"
  | integer spelling fault => s!"bad integer {Unicode.visible spelling}: {integerReason fault}"

end RubySignature.Signature
