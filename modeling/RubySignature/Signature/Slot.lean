/-
The fixed order of a signature.

A signature runs through a row of slots: leading required parameters, optional ones, a splat, trailing required ones,
keywords, a keyword splat, a block. `Slot.next?` says which slot a parameter moves to, if it may come now at all. Forwarding
ends a signature that has had nothing but leading parameters.
-/
import RubySignature.Tree.Kind

namespace RubySignature.Signature

/-- how far a signature has come -/
inductive Slot where
  | leading
  | optional
  | rest
  | trailing
  | keywords
  | keywordRest
  | block
  | forward
  deriving DecidableEq, Repr

namespace Slot

def rank : Slot → Nat
  | leading => 0
  | optional => 1
  | rest => 2
  | trailing => 3
  | keywords => 4
  | keywordRest => 5
  | block => 6
  | forward => 7

/-- The slot a parameter moves the signature to, if it may follow. -/
def next? (slot : Slot) : Kind → Option Slot
  | .arg | .mlhs =>
    match slot with
    | leading => some leading
    | optional | rest | trailing => some trailing
    | _ => none
  | .optarg => if slot.rank ≤ optional.rank then some optional else none
  | .restarg => if slot.rank ≤ optional.rank then some rest else none
  | .kwarg | .kwoptarg => if slot.rank ≤ keywords.rank then some keywords else none
  | .kwrestarg => if slot.rank ≤ keywords.rank then some keywordRest else none
  | .kwnilarg => if slot.rank ≤ trailing.rank then some keywordRest else none
  | .blockarg => if slot.rank ≤ keywordRest.rank then some block else none
  | .forwardArg => if slot = leading then some forward else none
  | _ => none

end Slot

end RubySignature.Signature
