/-
The log of a rendering pass.

A log lists what happens while a script runs, in the order of time: the rendering of a node begins, a visit ends with its
outcome, a request to the emitter has been served. It is read off the run itself, visits inside of visits included, so a
statement about all entries of the log is one about every moment of the pass. `Stretch` relates the emitter before a part
of the run, the log of that part and the emitter after it; `Stretch.script` and `Stretch.visit` carry such a relation from
single requests to whole scripts and from scripts to visits at any depth.
-/
import RubySignature.Render.Unparse

namespace RubySignature

/-- what a renderer or a caller asks of the emitter -/
inductive Request where
  | write (token : String)
  | context
  | visit (node : Node)
  | visitArgs (node : Node) (enclosing : Enclosing)

inductive Event where
  /-- the rendering of a node begins; `inside` is the emitter it finds -/
  | entered (node : Node) (inside : Emitter)
  /-- a visit of a node ends -/
  | visited (node : Node) (outcome : Outcome)
  /-- a request of the renderer of `owner?` has been served; a request from outside the pass has no owner -/
  | served (owner? : Option Node) (request : Request) (outcome : Outcome) (before after : Emitter)

abbrev VisitLog := Node → Emitter → List Event

def Script.log {α : Type} (owner? : Option Node) (visitor : Visitor) (visitLog : VisitLog) :
    Script α → Emitter → List Event
  | .done _, _ => []
  | .write token next, emitter =>
    let after := emitter.write token
    .served owner? (.write token) (.ok ()) emitter after :: next.log owner? visitor visitLog after
  | .context next, emitter =>
    .served owner? .context (.ok ()) emitter emitter ::
      (next emitter.enclosing).log owner? visitor visitLog emitter
  | .visit node next, emitter =>
    let (outcome, after) := visitor node emitter
    visitLog node emitter ++ .served owner? (.visit node) outcome emitter after ::
      (next outcome).log owner? visitor visitLog after
  | .visitArgs node enclosing next, emitter =>
    let (outcome, after) := visitor.visitArgs node enclosing emitter
    (if node.kind = .args then visitLog node { emitter with enclosing } else []) ++
      .served owner? (.visitArgs node enclosing) outcome emitter after ::
        (next outcome).log owner? visitor visitLog after

namespace Emitter

def descendLog (host : Host) : Nat → VisitLog
  | 0, node, emitter => [.visited node (descend host 0 node emitter).1]
  | levels + 1, node, emitter =>
    .entered node (emitter.enter node) ::
      (renderNode host node emitter.enclosing).run.log (some node) (descend host levels) (descendLog host levels)
        (emitter.enter node) ++
      [.visited node (descend host (levels + 1) node emitter).1]

/-- The emitter after a script that is run from outside the pass. -/
def after {α : Type} (emitter : Emitter) (host : Host) (calls : Script α) : Emitter :=
  (calls.run (visitor host) emitter).2

/-- The log of a script that is run from outside the pass. -/
def logOf {α : Type} (emitter : Emitter) (host : Host) (calls : Script α) : List Event :=
  calls.log none (visitor host) (fun node emitter => descendLog host (emitter.limit - emitter.depth) node emitter) emitter

end Emitter

/-! ## Stretches of a run -/

/-- a relation between the emitter before a part of a run, the log of the part, and the emitter after it -/
abbrev Stretch := Emitter → List Event → Emitter → Prop

namespace Stretch

/-- what a relation has to satisfy to hold of every script: it holds of nothing happening, it can be put together, and it
holds of each request -/
structure Composable (owner? : Option Node) (visitor : Visitor) (visitLog : VisitLog) (R : Stretch) : Prop where
  nothing : ∀ emitter, R emitter [] emitter
  join : ∀ {first second third log later}, R first log second → R second later third → R first (log ++ later) third
  write : ∀ emitter token,
    R emitter [.served owner? (.write token) (.ok ()) emitter (emitter.write token)] (emitter.write token)
  context : ∀ emitter, R emitter [.served owner? .context (.ok ()) emitter emitter] emitter
  visit : ∀ emitter node,
    R emitter (visitLog node emitter ++
      [.served owner? (.visit node) (visitor node emitter).1 emitter (visitor node emitter).2]) (visitor node emitter).2
  visitArgs : ∀ emitter node enclosing,
    R emitter ((if node.kind = .args then visitLog node { emitter with enclosing } else []) ++
      [.served owner? (.visitArgs node enclosing) (visitor.visitArgs node enclosing emitter).1 emitter
        (visitor.visitArgs node enclosing emitter).2]) (visitor.visitArgs node enclosing emitter).2

/-- **From requests to scripts.** A composable relation holds of the run of every script. -/
theorem script {owner? : Option Node} {visitor : Visitor} {visitLog : VisitLog} {R : Stretch}
    (h : Composable owner? visitor visitLog R) {α : Type} (script : Script α) (emitter : Emitter) :
    R emitter (script.log owner? visitor visitLog emitter) (script.run visitor emitter).2 := by
  induction script generalizing emitter with
  | done value => exact h.nothing emitter
  | write token next ih => exact h.join (h.write emitter token) (ih _)
  | context next ih => exact h.join (h.context emitter) (ih _ _)
  | visit node next ih =>
    have := h.join (h.visit emitter node) (ih (visitor node emitter).1 (visitor node emitter).2)
    rwa [List.append_assoc] at this
  | visitArgs node enclosing next ih =>
    have := h.join (h.visitArgs emitter node enclosing)
      (ih (visitor.visitArgs node enclosing emitter).1 (visitor.visitArgs node enclosing emitter).2)
    rwa [List.append_assoc] at this

end Stretch

end RubySignature
