/-
What a tree is rendered as.

A pass keeps its depth, its text and its failures in an emitter, but what it comes to can be said without one. The
`rendition` of a node is its text or the error it fails with, as a function of the limit, of the levels that are left and
of the construct around the node: the texts of its parts in turn, and where a part fails the error of the first that does.
`descend_rendition` says that every visit comes to the rendition of its node, from whatever emitter, if the host passes on
the errors of its visits. So what is said of renditions holds of passes, of single visits and of lists rendered as if they
stood elsewhere.
-/
import RubySignature.Proofs.Render.Depth

namespace RubySignature

/-- a text, or why there is none -/
abbrev Rendition := Except EmitError String

/-! ## Parts in turn -/

namespace Rendition

/-- One text and then another, or the error of the first of the two that has none. -/
def andThen (first later : Rendition) : Rendition := do return (← first) ++ (← later)

theorem empty_andThen (later : Rendition) : andThen (.ok "") later = later := by
  cases later with
  | error error => rfl
  | ok text => exact congrArg Except.ok String.empty_append

theorem andThen_empty (first : Rendition) : andThen first (.ok "") = first := by
  cases first with
  | error error => rfl
  | ok text => exact congrArg Except.ok String.append_empty

theorem andThen_assoc (first second third : Rendition) :
    (first.andThen second).andThen third = first.andThen (second.andThen third) := by
  cases first with
  | error error => rfl
  | ok text =>
    cases second with
    | error error => rfl
    | ok later =>
      cases third with
      | error error => rfl
      | ok last => exact congrArg Except.ok String.append_assoc

/-- The texts one after the other, or the error of the first part that has none. -/
def inTurn (parts : List Rendition) : Rendition := parts.foldr andThen (.ok "")

theorem inTurn_cons (part : Rendition) (later : List Rendition) :
    inTurn (part :: later) = part.andThen (inTurn later) := rfl

theorem inTurn_singleton (part : Rendition) : inTurn [part] = part := part.andThen_empty

theorem inTurn_append (parts later : List Rendition) :
    inTurn (parts ++ later) = (inTurn parts).andThen (inTurn later) := by
  induction parts with
  | nil => exact (empty_andThen _).symm
  | cons part parts ih => rw [List.cons_append, inTurn_cons, inTurn_cons, ih, andThen_assoc]

end Rendition

open Rendition

/-! ## Renditions -/

/-- What a script comes to, if the visits in it come to what `visits` says of each construct. -/
def Script.rendition (visits : Enclosing → Node → Rendition) (enclosing : Enclosing) : Script Outcome → Rendition
  | .done outcome => outcome.map fun () => ""
  | .write token next => andThen (.ok token) (next.rendition visits enclosing)
  | .context next => (next enclosing).rendition visits enclosing
  | .visit node next => (visits enclosing node).andThen ((next (.ok ())).rendition visits enclosing)
  | .visitArgs node inner next =>
    if node.kind = .args then (visits inner node).andThen ((next (.ok ())).rendition visits enclosing)
    else (next (.error (.unexpectedNode .args node.kind))).rendition visits enclosing

/-- What a node comes to with a number of levels left, inside the given construct. -/
def rendition (host : Host) (limit : Nat) : Nat → Enclosing → Node → Rendition
  | 0, _, _ => .error (.depthExceeded limit)
  | levels + 1, enclosing, node =>
    (renderNode host node enclosing).run.rendition (rendition host limit levels) (.ofParent node)

/-! ## Runs -/

/-- the run from an emitter comes to the rendition: it appends the text and does nothing else, or ends with the error -/
def ComesTo (emitter : Emitter) (run : Outcome × Emitter) : Rendition → Prop
  | .ok text => run = (.ok (), emitter.write text)
  | .error error => run.1 = .error error

namespace ComesTo

variable {emitter : Emitter} {run : Outcome × Emitter} {rendition : Rendition} {text : String}

/-- a text that was written before comes first -/
theorem after (h : ComesTo (emitter.write text) run rendition) : ComesTo emitter run (andThen (.ok text) rendition) := by
  cases rendition with
  | error error => exact h
  | ok later =>
    change run = _ at h
    rw [h, Emitter.write_write]
    rfl

/-- After a visit the script goes on if the visit came to a text, and is over if it failed. -/
theorem next {visitor : Visitor} {outcome : Outcome} {middle : Emitter} {next : Outcome → Script Outcome}
    {later : Rendition} (h : ComesTo emitter (outcome, middle) rendition)
    (heager : ∀ error, next (.error error) = .done (.error error))
    (hlater : ∀ text, ComesTo (emitter.write text) ((next (.ok ())).run visitor (emitter.write text)) later) :
    ComesTo emitter ((next outcome).run visitor middle) (rendition.andThen later) := by
  cases rendition with
  | error error =>
    obtain rfl : outcome = .error error := h
    rw [heager]
    rfl
  | ok text =>
    obtain ⟨rfl, rfl⟩ := Prod.mk.inj (show (outcome, middle) = (.ok (), emitter.write text) from h)
    exact (hlater text).after

/-- A list that is rendered as if it stood in another construct comes to what it comes to there. -/
theorem list {visitor : Visitor} {node : Node} {inner : Enclosing} (hkind : node.kind = .args)
    (h : ComesTo { emitter with enclosing := inner } (visitor node { emitter with enclosing := inner }) rendition) :
    ComesTo emitter (visitor.visitArgs node inner emitter) rendition := by
  rw [visitArgs_list visitor hkind]
  cases rendition with
  | error error => exact h
  | ok text =>
    change visitor node { emitter with enclosing := inner } = _ at h
    rw [h]
    rfl

/-- On the way into a node and out of it nothing is written. -/
theorem visited {node : Node} {outcome : Outcome} {inside : Emitter}
    (h : ComesTo (emitter.enter node) (outcome, inside) rendition) :
    ComesTo emitter (outcome, (inside.leave emitter.enclosing).record outcome) rendition := by
  cases rendition with
  | error error => exact h
  | ok text =>
    obtain ⟨rfl, rfl⟩ := Prod.mk.inj (show (outcome, inside) = (.ok (), (emitter.enter node).write text) from h)
    rfl

/-- A pass that does one thing hands out what that comes to. -/
theorem finish {limit : Nat} (h : ComesTo (.start limit) run rendition) :
    (run.1.bind fun () => run.2.finish) = rendition := by
  cases rendition with
  | error error =>
    change run.1 = _ at h
    rw [h]
    rfl
  | ok text =>
    change run = _ at h
    rw [h]
    exact congrArg Except.ok String.empty_append

end ComesTo

/-- **Step.** Where visits come to their renditions, so does the script of an eager renderer. -/
theorem Script.comesTo {limit : Nat} {visitor : Visitor} {visits : Enclosing → Node → Rendition}
    (hvisit : ∀ node (emitter : Emitter), emitter.limit = limit →
      ComesTo emitter (visitor node emitter) (visits emitter.enclosing node))
    (script : Script Outcome) (heager : script.Eager) (emitter : Emitter) (hlimit : emitter.limit = limit) :
    ComesTo emitter (script.run visitor emitter) (script.rendition visits emitter.enclosing) := by
  induction script generalizing emitter with
  | done outcome =>
    cases outcome with
    | error error => rfl
    | ok value =>
      change ((.ok value, emitter) : Outcome × Emitter) = (.ok (), emitter.write "")
      rw [Emitter.write_empty]
  | write token next ih => exact (ih heager (emitter.write token) hlimit).after
  | context next ih => exact ih emitter.enclosing (heager emitter.enclosing) emitter hlimit
  | visit node next ih =>
    refine (hvisit node emitter hlimit).next heager.1 ?_
    intro text
    exact ih (.ok ()) heager.2 (emitter.write text) hlimit
  | visitArgs node inner next ih =>
    rw [Script.rendition, Script.run]
    by_cases hkind : node.kind = .args
    · have hlist := ComesTo.list hkind (hvisit node { emitter with enclosing := inner } hlimit)
      rw [if_pos hkind]
      refine hlist.next (heager.1 hkind) ?_
      intro text
      exact ih (.ok ()) (heager.2 (.ok ())) (emitter.write text) hlimit
    · -- the list is refused, and nothing has been done
      rw [if_neg hkind, Visitor.visitArgs, if_neg hkind]
      exact ih _ (heager.2 _) emitter hlimit

/-- **Run.** Every visit comes to the rendition of its node, by induction on the levels that are left. -/
theorem descend_rendition {host : Host} (heager : host.Eager) (levels : Nat) (node : Node) (emitter : Emitter) :
    ComesTo emitter (Emitter.descend host levels node emitter)
      (rendition host emitter.limit levels emitter.enclosing node) := by
  induction levels generalizing node emitter with
  | zero => rfl
  | succ levels ih =>
    have hvisit (child : Node) (inside : Emitter) (hlimit : inside.limit = emitter.limit) :
        ComesTo inside (Emitter.descend host levels child inside)
          (rendition host emitter.limit levels inside.enclosing child) := hlimit ▸ ih child inside
    have hscript := Script.comesTo hvisit (renderNode host node emitter.enclosing).run
      (renderNode_eager heager node emitter.enclosing) (emitter.enter node) rfl
    exact hscript.visited

section

variable {levels : Nat} {node : Node} (emitter : Emitter)

theorem descend_of_text {text : String}
    (h : rendition Host.basic emitter.limit levels emitter.enclosing node = .ok text) :
    Emitter.descend Host.basic levels node emitter = (.ok (), emitter.write text) := by
  have hcomes := descend_rendition Host.basic_eager levels node emitter
  rw [h] at hcomes
  exact hcomes

theorem descend_of_error {error : EmitError}
    (h : rendition Host.basic emitter.limit levels emitter.enclosing node = .error error) :
    (Emitter.descend Host.basic levels node emitter).1 = .error error := by
  have hcomes := descend_rendition Host.basic_eager levels node emitter
  rw [h] at hcomes
  exact hcomes

end

section

variable {limit levels : Nat} {enclosing : Enclosing}

/-- what a node is written as from every emitter is its rendition -/
theorem rendition_of_renders {node : Node} {text : String} (h : Renders levels node text) :
    rendition Host.basic limit levels enclosing node = .ok text := by
  let emitter : Emitter := { limit, enclosing }
  have hcomes := descend_rendition Host.basic_eager levels node emitter
  rw [h emitter] at hcomes
  change ComesTo emitter _ (rendition Host.basic limit levels enclosing node) at hcomes
  cases hnode : rendition Host.basic limit levels enclosing node with
  | error error =>
    rw [hnode] at hcomes
    cases hcomes
  | ok another =>
    rw [hnode] at hcomes
    have htext : "" ++ text = "" ++ another := congrArg (fun run => run.2.output.text) hcomes
    rw [String.empty_append, String.empty_append] at htext
    rw [htext]

theorem mapM_of_renders {nodes : List Node} {texts : List String} (h : List.Forall₂ (Renders levels) nodes texts) :
    nodes.mapM (rendition Host.basic limit levels enclosing) = .ok texts := by
  induction h with
  | nil => rfl
  | cons hnode _ ih =>
    rw [List.mapM_cons, rendition_of_renders hnode, ih]
    rfl

end

/-! ## Whole passes -/

theorem unparseWith_rendition (limit : Nat) (node : Node) :
    unparseWith Host.basic limit node = rendition Host.basic limit limit .other node :=
  (descend_rendition Host.basic_eager limit node (.start limit)).finish

theorem textOf_visitArgs (limit : Nat) {list : Node} (hkind : list.kind = .args) (enclosing : Enclosing) :
    Emitter.textOf Host.basic limit (RenderM.visitArgs list enclosing) = rendition Host.basic limit limit enclosing list := by
  have hlist : ComesTo { Emitter.start limit with enclosing }
      (Emitter.visitor Host.basic list { Emitter.start limit with enclosing })
      (rendition Host.basic limit limit enclosing list) :=
    descend_rendition Host.basic_eager limit list { Emitter.start limit with enclosing }
  exact (ComesTo.list hkind hlist).finish

theorem unparseArgs_rendition {list : Node} (hkind : list.kind = .args) (enclosing : Enclosing) :
    unparseArgs list enclosing = rendition Host.basic defaultLimit defaultLimit enclosing list :=
  textOf_visitArgs defaultLimit hkind enclosing

/-! ## Constructs and limits -/

/-- Only a parameter list is rendered by the construct around it. -/
theorem rendition_of_kind_ne {host : Host} {limit levels : Nat} {node : Node} (h : node.kind ≠ .args)
    (enclosing another : Enclosing) :
    rendition host limit levels enclosing node = rendition host limit levels another node := by
  cases levels with
  | zero => rfl
  | succ levels => rw [rendition, rendition, renderNode_of_kind_ne h enclosing another]

/-- The error as a pass with another limit has it. -/
def EmitError.atLimit (limit : Nat) : EmitError → EmitError
  | .depthExceeded _ => .depthExceeded limit
  | error => error

theorem forM_mapError {nodes : List Node} {outcome : Node → Outcome} {f : EmitError → EmitError} :
    (forM nodes fun node => (outcome node).mapError f) = (forM nodes outcome).mapError f := by
  induction nodes with
  | nil => rfl
  | cons node later ih =>
    rw [List.forM_cons, List.forM_cons, ih]
    cases outcome node with
    | error error => rfl
    | ok value => rfl

/-- A verdict shows the limit only in the error that names it. -/
theorem verdict_atLimit (limit limit' levels : Nat) (enclosing : Enclosing) (tree : Node) :
    verdict limit' levels enclosing tree = (verdict limit levels enclosing tree).mapError (·.atLimit limit') := by
  induction levels generalizing enclosing tree with
  | zero => rfl
  | succ levels ih =>
    have hbelow : verdict limit' levels (.ofParent tree) =
        fun child => (verdict limit levels (.ofParent tree) child).mapError (·.atLimit limit') := funext (ih _)
    rw [verdict, verdict, hbelow, forM_mapError]
    cases hcheck : tree.check enclosing with
    | ok value => rfl
    | error error =>
      cases error with
      | depthExceeded exceeded => exact absurd hcheck (check_ne_depthExceeded tree enclosing exceeded)
      | _ => rfl

theorem rendition_verdict (limit levels : Nat) (enclosing : Enclosing) (node : Node) :
    (rendition Host.basic limit levels enclosing node).map (fun _ => ()) = verdict limit levels enclosing node := by
  obtain ⟨after, hrun, -, -⟩ := descend_verdict limit levels enclosing node { limit, enclosing } rfl rfl
  have houtcome : (Emitter.descend Host.basic levels node { limit, enclosing }).1 = verdict limit levels enclosing node :=
    congrArg Prod.fst hrun
  rw [← houtcome]
  cases h : rendition Host.basic limit levels enclosing node with
  | error error => exact (descend_of_error { limit, enclosing } h).symm
  | ok text => exact (congrArg Prod.fst (descend_of_text { limit, enclosing } h)).symm

theorem rendition_text_limit {limit levels : Nat} {enclosing : Enclosing} {node : Node} {text : String}
    (h : rendition Host.basic limit levels enclosing node = .ok text) (limit' : Nat) :
    rendition Host.basic limit' levels enclosing node = .ok text := by
  have hbeside : Beside (levels < levels) { limit, enclosing } { limit := limit', enclosing }
      (Emitter.descend Host.basic levels node { limit, enclosing })
      (Emitter.descend Host.basic levels node { limit := limit', enclosing }) :=
    descend_beside Host.basic_eager (Nat.le_refl levels) node fun _ => rfl
  obtain ⟨hresult, added, htext, htext'⟩ := hbeside.resolve_left fun ⟨hshorter, _⟩ => Nat.lt_irrefl levels hshorter
  rw [descend_of_text { limit, enclosing } h] at hresult htext
  cases h' : rendition Host.basic limit' levels enclosing node with
  | error error =>
    rw [descend_of_error { limit := limit', enclosing } h'] at hresult
    rcases hresult with hsame | ⟨hexceeded, _⟩
    · cases hsame
    · cases hexceeded
  | ok text' =>
    rw [descend_of_text { limit := limit', enclosing } h'] at htext'
    change "" ++ text = "" ++ added at htext
    change "" ++ text' = "" ++ added at htext'
    rw [String.empty_append, String.empty_append] at htext htext'
    rw [htext, htext']

/-- A rendition shows the limit only in the error that names it. -/
theorem rendition_atLimit (limit limit' levels : Nat) (enclosing : Enclosing) (node : Node) :
    rendition Host.basic limit' levels enclosing node =
      (rendition Host.basic limit levels enclosing node).mapError (·.atLimit limit') := by
  cases h : rendition Host.basic limit levels enclosing node with
  | ok text => exact rendition_text_limit h limit'
  | error error =>
    have hverdict := verdict_atLimit limit limit' levels enclosing node
    rw [← rendition_verdict, ← rendition_verdict, h] at hverdict
    cases h' : rendition Host.basic limit' levels enclosing node with
    | ok text =>
      rw [h'] at hverdict
      cases hverdict
    | error error' =>
      rw [h'] at hverdict
      exact congrArg Except.error (Except.error.inj hverdict)

/-! ## Renderers and their parts -/

section

variable {visits : Enclosing → Node → Rendition} {enclosing : Enclosing}

theorem Script.rendition_bind (script : Script Outcome) (next : RenderM Unit) :
    (script.bind (ExceptT.bindCont fun _ => next)).rendition visits enclosing =
      (script.rendition visits enclosing).andThen (next.run.rendition visits enclosing) := by
  induction script with
  | done outcome =>
    cases outcome with
    | error error => rfl
    | ok value => exact (empty_andThen _).symm
  | write token later ih => rw [Script.bind, Script.rendition, ih, Script.rendition, andThen_assoc]
  | context later ih => exact ih enclosing
  | visit node later ih => rw [Script.bind, Script.rendition, ih, Script.rendition, andThen_assoc]
  | visitArgs node inner later ih =>
    rw [Script.bind, Script.rendition, Script.rendition]
    split
    · rw [ih, andThen_assoc]
    · exact ih _

end

namespace RenderM

/-- The renderer comes to the parts in turn. -/
def HasParts (visits : Enclosing → Node → Rendition) (enclosing : Enclosing) (action : RenderM Unit)
    (parts : List Rendition) : Prop :=
  action.run.rendition visits enclosing = inTurn parts

namespace HasParts

variable {visits : Enclosing → Node → Rendition} {enclosing : Enclosing} {α : Type} {parts : List Rendition}

theorem pure : HasParts visits enclosing (Pure.pure ()) [] := rfl

theorem write (token : String) : HasParts visits enclosing (write token) [.ok token] := rfl

theorem visit (node : Node) : HasParts visits enclosing (visit node) [visits enclosing node] := rfl

theorem seq {action next : RenderM Unit} {later : List Rendition} (h : HasParts visits enclosing action parts)
    (hnext : HasParts visits enclosing next later) :
    HasParts visits enclosing (action >>= fun _ => next) (parts ++ later) := by
  have hbind : (action >>= fun _ => next).run.rendition visits enclosing =
      (action.run.rendition visits enclosing).andThen (next.run.rendition visits enclosing) :=
    Script.rendition_bind action.run next
  unfold HasParts
  rw [hbind, h, hnext, inTurn_append]

theorem writeAll (tokens : List String) : HasParts visits enclosing (writeAll tokens) (tokens.map .ok) := by
  induction tokens with
  | nil => exact pure
  | cons token later ih => exact seq (write token) ih

/-- a check that succeeds adds nothing -/
theorem ofShape {checked : Except ShapeError α} {value : α} {next : α → RenderM Unit} (hvalue : checked = .ok value)
    (h : HasParts visits enclosing (next value) parts) : HasParts visits enclosing (ofShape checked >>= next) parts := by
  subst hvalue
  exact h

theorem parentheses {body : RenderM Unit} (h : HasParts visits enclosing body parts) :
    HasParts visits enclosing (parentheses body) (.ok "(" :: (parts ++ [.ok ")"])) :=
  seq (write "(") (seq h (write ")"))

theorem given (condition : Bool) {action : RenderM Unit} (h : HasParts visits enclosing action parts) :
    HasParts visits enclosing (given condition action) (if condition then parts else []) := by
  cases condition with
  | true => exact h
  | false => exact pure

theorem option {item? : Option α} {action : α → RenderM Unit} {partsOf : α → List Rendition}
    (h : ∀ item, HasParts visits enclosing (action item) (partsOf item)) :
    HasParts visits enclosing (item?.forM action) (item?.toList.flatMap partsOf) := by
  cases item? with
  | none => exact pure
  | some item =>
    rw [Option.toList_some, List.flatMap_singleton]
    exact h item

/-- the nodes after the first each come after a comma -/
theorem forM_comma (node : Node) (later : List Node) : HasParts visits enclosing
    (RenderM.visit node >>= fun _ => later.forM fun node => do RenderM.write ", "; RenderM.visit node)
    (((node :: later).map (visits enclosing)).intersperse (.ok ", ")) := by
  induction later generalizing node with
  | nil => exact seq (visit node) pure
  | cons next later ih =>
    have hnext := seq (write ", ") (ih next)
    rw [← bind_assoc] at hnext
    exact seq (visit node) hnext

/-- Nodes come with commas between them. -/
theorem delimited (nodes : List Node) :
    HasParts visits enclosing (delimited nodes) ((nodes.map (visits enclosing)).intersperse (.ok ", ")) := by
  cases nodes with
  | nil => exact pure
  | cons node later => exact forM_comma node later

end HasParts

end RenderM

end RubySignature
