/-
S-expressions as they are written.

A `Form` is a text that has been taken apart into nodes and leaves, with node names and integers still as spelt. Reading
goes from token to token with the nodes that are still open on a stack: a closing parenthesis moves the node it closes
into the one around it, and the text is read once the outermost node is closed. Each token shortens the text, so reading
ends. The first token that does not fit is the fault of the whole text.
-/
import RubySignature.Sexp.Token

namespace RubySignature.Sexp

/-- an item of a text: a leaf, or a node with its name and items -/
inductive Form where
  | node (name : String) (items : List Form)
  | leaf (value : Leaf)

/-- a node as it is written -/
structure Group where
  name : String
  items : List Form

def Group.toForm (group : Group) : Form := .node group.name group.items

/-- a node whose closing parenthesis is still to come -/
structure Frame where
  name : String
  /-- the items read so far, the latest first -/
  recent : List Form

namespace Frame

def push (frame : Frame) (item : Form) : Frame := { frame with recent := item :: frame.recent }

/-- The node, once its closing parenthesis has come. -/
def close (frame : Frame) : Group := ⟨frame.name, frame.recent.reverse⟩

end Frame

/-- Reads up to the end of the outermost open node; `outer` holds the nodes around `top`, the nearest first. -/
def readItems (top : Frame) (outer : List Frame) (s : List Char) : Except Fault (Group × List Char) :=
  match _h : Token.next (skip s) with
  | .error fault => .error fault
  | .ok (.leaf value, rest) => readItems (top.push (.leaf value)) outer rest
  | .ok (.opening name, rest) => readItems ⟨name, []⟩ (top :: outer) rest
  | .ok (.closing, rest) =>
    match outer with
    | [] => .ok (top.close, rest)
    | frame :: outer => readItems (frame.push top.close.toForm) outer rest
termination_by s.length
decreasing_by all_goals exact Nat.lt_of_lt_of_le (Token.length_of_next _h) (length_skip_le s)

/-- Reads a text that holds one node and nothing else but layout. -/
def readGroup (s : List Char) : Except Fault Group :=
  match skip s with
  | '(' :: rest =>
    match scanKind? (skip rest) with
    | none => .error ⟨.kindName, skip rest⟩
    | some (name, rest) =>
      match readItems ⟨name, []⟩ [] rest with
      | .error fault => .error fault
      | .ok (group, rest) => if (skip rest).isEmpty then .ok group else .error ⟨.endOfText, skip rest⟩
  | rest => .error ⟨.node, rest⟩

end RubySignature.Sexp
