/-
Renderers that succeed, and the text they write.

`RenderM.Writes` says of a renderer that it succeeds on every emitter and does nothing but append a text. Renderers put
together write the texts of their parts one after the other, so what a node is written as can be read off its renderer
once it is known what the nodes in it are written as (`renders_of_writes`). A pass over such a node hands out that text
(`unparseArgs_of_renders`).
-/
import Mathlib.Data.List.Forall2
import RubySignature.Proofs.Render.Steps

namespace RubySignature

/-! ## Texts one after the other -/

namespace Emitter

theorem write_empty (emitter : Emitter) : emitter.write "" = emitter := by
  unfold write Output.write
  rw [String.append_empty]

theorem write_write (emitter : Emitter) (text later : String) :
    (emitter.write text).write later = emitter.write (text ++ later) := by
  unfold write Output.write
  rw [String.append_assoc]

end Emitter

theorem intercalate_cons (text : String) (later : List String) :
    ", ".intercalate (text :: later) = text ++ String.join (later.map (", " ++ ·)) := by
  induction later generalizing text with
  | nil => rw [String.intercalate_singleton, List.map_nil, String.join_nil, String.append_empty]
  | cons next later ih =>
    rw [String.intercalate_cons_cons, ih, List.map_cons, String.join_cons, String.append_assoc, String.append_assoc]

namespace RenderM

variable {visitor : Visitor} {α : Type}

/-- The renderer succeeds and appends the text. -/
def Writes (visitor : Visitor) (action : RenderM Unit) (text : String) : Prop :=
  ∀ emitter, action.runOn visitor emitter = (.ok (), emitter.write text)

namespace Writes

theorem pure : Writes visitor (Pure.pure ()) "" := by
  intro emitter
  rw [Emitter.write_empty]
  rfl

theorem write (token : String) : Writes visitor (write token) token := fun _ => rfl

theorem visit {node : Node} {text : String} (h : ∀ emitter, visitor node emitter = (.ok (), emitter.write text)) :
    Writes visitor (visit node) text := by
  intro emitter
  rw [← h emitter]
  rfl

theorem seq {action next : RenderM Unit} {text later : String} (h : Writes visitor action text)
    (hnext : Writes visitor next later) : Writes visitor (action >>= fun _ => next) (text ++ later) := by
  intro emitter
  rw [runOn_bind, h emitter]
  dsimp only
  rw [hnext, Emitter.write_write]

/-- a check that succeeds writes nothing -/
theorem ofShape {checked : Except ShapeError α} {value : α} {next : α → RenderM Unit} {text : String}
    (hvalue : checked = .ok value) (h : Writes visitor (next value) text) :
    Writes visitor (ofShape checked >>= next) text := by
  subst hvalue
  exact h

theorem two (token later : String) : Writes visitor (writeAll [token, later]) (token ++ later) := by
  have h : Writes visitor (writeAll [token, later]) (token ++ (later ++ "")) :=
    seq (write token) (seq (write later) pure)
  rwa [String.append_empty] at h

theorem parentheses {body : RenderM Unit} {text : String} (h : Writes visitor body text) :
    Writes visitor (parentheses body) ("(" ++ (text ++ ")")) :=
  seq (write "(") (seq h (write ")"))

/-- each node is written after a comma of its own -/
theorem forM_comma {nodes : List Node} {texts : List String}
    (h : List.Forall₂ (fun node text => Writes visitor (RenderM.visit node) text) nodes texts) :
    Writes visitor (nodes.forM fun node => do RenderM.write ", "; RenderM.visit node)
      (String.join (texts.map (", " ++ ·))) := by
  induction h with
  | nil => exact pure
  | cons hnode _ ih =>
    rw [List.map_cons, String.join_cons]
    exact seq (seq (write ", ") hnode) ih

/-- Nodes are written with commas between them. -/
theorem delimited {nodes : List Node} {texts : List String}
    (h : List.Forall₂ (fun node text => Writes visitor (RenderM.visit node) text) nodes texts) :
    Writes visitor (delimited nodes) (", ".intercalate texts) := by
  cases h with
  | nil => exact pure
  | cons hnode hlater =>
    rw [intercalate_cons]
    exact seq hnode (forM_comma hlater)

end Writes

end RenderM

/-! ## Levels -/

mutual

/-- how many nodes are nested in a child, with itself -/
def Child.height : Child → Nat
  | .node _ children => Child.heights children + 1
  | .symbol _ | .int _ | .float _ | .str _ | .nil => 0

def Child.heights : List Child → Nat
  | [] => 0
  | child :: later => max child.height (Child.heights later)

end

def Node.height (node : Node) : Nat := Child.heights node.children + 1

theorem Child.heights_le {children : List Child} {levels : Nat} :
    Child.heights children ≤ levels ↔ ∀ child ∈ children, child.height ≤ levels := by
  induction children with
  | nil => exact ⟨fun _ _ h => absurd h List.not_mem_nil, fun _ => Nat.zero_le _⟩
  | cons child later ih => rw [Child.heights, Nat.max_le, List.forall_mem_cons, ih]

theorem Node.height_le_succ {node : Node} {levels : Nat} :
    node.height ≤ levels + 1 ↔ ∀ child ∈ node.children, child.height ≤ levels := by
  rw [Node.height, Nat.add_le_add_iff_right, Child.heights_le]

theorem Node.height_ofNodes_le {kind : Kind} {nodes : List Node} {levels : Nat} :
    (Node.ofNodes kind nodes).height ≤ levels + 1 ↔ ∀ node ∈ nodes, node.height ≤ levels := by
  rw [Node.height_le_succ]
  exact List.forall_mem_map

/-- a node takes up a level of its own -/
theorem Node.exists_levels {node : Node} {levels : Nat} (h : node.height ≤ levels) : ∃ below, levels = below + 1 := by
  unfold Node.height at h
  exact ⟨levels - 1, by omega⟩

/-! ## Nodes -/

/-- The node is written as the text, with a number of levels left, whatever stands around it. -/
def Renders (levels : Nat) (node : Node) (text : String) : Prop :=
  ∀ emitter, Emitter.descend Host.basic levels node emitter = (.ok (), emitter.write text)

/-- The node is written as the text inside the given construct, with a number of levels left. -/
def RendersIn (enclosing : Enclosing) (levels : Nat) (node : Node) (text : String) : Prop :=
  ∀ emitter, emitter.enclosing = enclosing →
    Emitter.descend Host.basic levels node emitter = (.ok (), emitter.write text)

/-- a node is written as one text only -/
theorem Renders.unique {levels : Nat} {node : Node} {text other : String} (h : Renders levels node text)
    (hother : Renders levels node other) : text = other := by
  have hsame := (h (Emitter.start 0)).symm.trans (hother (Emitter.start 0))
  have htext : "" ++ text = "" ++ other := congrArg (fun result => result.2.output.text) hsame
  rwa [String.empty_append, String.empty_append] at htext

open RenderM

theorem rendersIn_of_writes {enclosing : Enclosing} {levels : Nat} {node : Node} {text : String}
    (h : Writes (Emitter.descend Host.basic levels) (renderNode Host.basic node enclosing) text) :
    RendersIn enclosing (levels + 1) node text := by
  rintro emitter rfl
  have hrun : (renderNode Host.basic node emitter.enclosing).run.run (Emitter.descend Host.basic levels)
      (emitter.enter node) = (.ok (), (emitter.enter node).write text) := h (emitter.enter node)
  rw [Emitter.descend, hrun]
  rfl

theorem renders_of_writes {levels : Nat} {node : Node} {text : String}
    (h : ∀ enclosing, Writes (Emitter.descend Host.basic levels) (renderNode Host.basic node enclosing) text) :
    Renders (levels + 1) node text :=
  fun emitter => rendersIn_of_writes (h emitter.enclosing) emitter rfl

/-- a node that is no parameter is written as the host writes it -/
theorem writes_host {visitor : Visitor} {host : Host} {node : Node} {text : String} (hkind : node.kind.isParameter = false)
    (h : Writes visitor (host node) text) (enclosing : Enclosing) :
    Writes visitor (renderNode host node enclosing) text := by
  unfold renderNode
  rw [hkind]
  exact h

theorem visitArgs_list (visitor : Visitor) {node : Node} (hkind : node.kind = .args) (enclosing : Enclosing)
    (emitter : Emitter) :
    visitor.visitArgs node enclosing emitter =
      ((visitor node { emitter with enclosing }).1,
        { (visitor node { emitter with enclosing }).2 with enclosing := emitter.enclosing }) := by
  unfold Visitor.visitArgs
  exact if_pos hkind

/-- A list that is written as a text inside a construct is the text of a whole pass there. -/
theorem unparseArgs_of_renders {node : Node} {enclosing : Enclosing} {text : String} (hkind : node.kind = .args)
    (h : RendersIn enclosing defaultLimit node text) : unparseArgs node enclosing = .ok text := by
  have hvisit : Emitter.visitor Host.basic node { Emitter.start defaultLimit with enclosing } =
      (.ok (), Emitter.write { Emitter.start defaultLimit with enclosing } text) := h _ rfl
  have hrun : (visitArgs node enclosing).run.run (Emitter.visitor Host.basic) (Emitter.start defaultLimit) =
      (.ok (), (Emitter.start defaultLimit).write text) := by
    have hargs := visitArgs_list (Emitter.visitor Host.basic) hkind enclosing (Emitter.start defaultLimit)
    rw [hvisit] at hargs
    exact hargs
  unfold unparseArgs Emitter.textOf Emitter.perform
  rw [hrun]
  exact congrArg Except.ok String.empty_append

end RubySignature
