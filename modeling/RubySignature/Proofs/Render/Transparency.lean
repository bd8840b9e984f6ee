/-
Two passes over the same node, side by side.

What rendering a node comes to is decided by the node, by the number of levels that are left and, for a parameter list,
by the construct around it. The text already written, a recorded failure and the depth at which the pass came to the node
leave no trace in it, but for the limit that an error about the depth names. `visit_transparent` says so of any two
emitters with the same number of levels left, and adds that below the node even the construct around it is forgotten.

The proof takes two passes step by step (`Beside`). The second may have more levels left than the first, which then may
break off for its depth where the second goes on. A renderer can look at the errors it gets, and the two passes would part
at an error that names a limit. So the hosts spoken of here are eager: they do nothing more after an error.
-/
import RubySignature.Proofs.Render.Discipline
import RubySignature.Proofs.Render.Eager
import RubySignature.Proofs.Render.Writing
import RubySignature.Proofs.Tree.Shapes

namespace RubySignature

/-! ## Results side by side -/

/-- two runs, from `first` and from `second`, come to the same: they have the same result, up to the limit that is
exceeded, and add the same text -/
structure Same {α : Type} (first second : Emitter) (run run' : Except EmitError α × Emitter) : Prop where
  result : run.1 = run'.1 ∨
    run.1 = .error (.depthExceeded first.limit) ∧ run'.1 = .error (.depthExceeded second.limit)
  text : ∃ added, run.2.output.text = first.output.text ++ added ∧ run'.2.output.text = second.output.text ++ added

/-- the same, unless the first run breaks off for its depth, which it does only if it is `shorter` of levels -/
def Beside {α : Type} (shorter : Prop) (first second : Emitter) (run run' : Except EmitError α × Emitter) : Prop :=
  shorter ∧ run.1 = .error (.depthExceeded first.limit) ∨ Same first second run run'

namespace Beside

variable {α : Type} {shorter : Prop} {first second middle middle' : Emitter}

theorem done (result : Except EmitError α) : Beside shorter first second (result, first) (result, second) :=
  Or.inr ⟨Or.inl rfl, "", by simp, by simp⟩

/-- Both runs have added the same text before. -/
theorem after {run run' : Except EmitError α × Emitter} {added : String} (h : Beside shorter middle middle' run run')
    (hlimit : middle.limit = first.limit) (hlimit' : middle'.limit = second.limit)
    (htext : middle.output.text = first.output.text ++ added)
    (htext' : middle'.output.text = second.output.text ++ added) : Beside shorter first second run run' := by
  rcases h with ⟨hshorter, herror⟩ | ⟨hresult, later, hlater, hlater'⟩
  · exact Or.inl ⟨hshorter, hlimit ▸ herror⟩
  · refine Or.inr ⟨?_, added ++ later, ?_, ?_⟩
    · rwa [hlimit, hlimit'] at hresult
    · rw [hlater, htext, String.append_assoc]
    · rw [hlater', htext', String.append_assoc]

/-- What is done to the emitters around the runs is of no account if it leaves limit and text alone. -/
theorem within {outcome outcome' : Except EmitError α} {inside inside' last last' : Emitter}
    (h : Beside shorter middle middle' (outcome, inside) (outcome', inside')) (hlimit : middle.limit = first.limit)
    (hlimit' : middle'.limit = second.limit) (hbefore : middle.output = first.output)
    (hbefore' : middle'.output = second.output) (hafter : last.output = inside.output)
    (hafter' : last'.output = inside'.output) : Beside shorter first second (outcome, last) (outcome', last') := by
  rcases h with ⟨hshorter, herror⟩ | ⟨hresult, added, htext, htext'⟩
  · exact Or.inl ⟨hshorter, hlimit ▸ herror⟩
  · refine Or.inr ⟨?_, added, ?_, ?_⟩
    · rwa [hlimit, hlimit'] at hresult
    · rw [hafter, ← hbefore]
      exact htext
    · rw [hafter', ← hbefore']
      exact htext'

/-- After a request both runs go on if it succeeded, and are over if it failed. -/
theorem next {visitor visitor' : Visitor} {outcome outcome' : Outcome} {next : Outcome → Script (Except EmitError α)}
    (h : Beside shorter first second (outcome, middle) (outcome', middle')) (hkeeps : Keeps first middle)
    (hkeeps' : Keeps second middle') (heager : ∀ error, next (.error error) = .done (.error error))
    (hok : Beside shorter middle middle' ((next (.ok ())).run visitor middle) ((next (.ok ())).run visitor' middle')) :
    Beside shorter first second ((next outcome).run visitor middle) ((next outcome').run visitor' middle') := by
  rcases h with ⟨hshorter, herror⟩ | ⟨hresult, added, htext, htext'⟩
  · obtain rfl : outcome = _ := herror
    rw [heager]
    exact Or.inl ⟨hshorter, rfl⟩
  · rcases hresult with hsame | ⟨herror, herror'⟩
    · obtain rfl : outcome = outcome' := hsame
      cases outcome with
      | ok value => exact hok.after hkeeps.limit hkeeps'.limit htext htext'
      | error error =>
        rw [heager]
        exact Or.inr ⟨Or.inl rfl, added, htext, htext'⟩
    · obtain rfl : outcome = _ := herror
      obtain rfl : outcome' = _ := herror'
      rw [heager, heager]
      exact Or.inr ⟨Or.inr ⟨rfl, rfl⟩, added, htext, htext'⟩

end Beside

/-! ## Renderers -/

/-- **Step.** Where visits run side by side, so does the script of an eager renderer, in the same construct. -/
theorem Script.beside {α : Type} {shorter : Prop} {visitor visitor' : Visitor}
    (hkeeps : ∀ node emitter, Keeps emitter (visitor node emitter).2)
    (hkeeps' : ∀ node emitter, Keeps emitter (visitor' node emitter).2)
    (hvisit : ∀ node (first second : Emitter), first.enclosing = second.enclosing →
      Beside shorter first second (visitor node first) (visitor' node second))
    (script : Script (Except EmitError α)) (heager : script.Eager) {first second : Emitter}
    (henclosing : first.enclosing = second.enclosing) :
    Beside shorter first second (script.run visitor first) (script.run visitor' second) := by
  induction script generalizing first second with
  | done result => exact .done result
  | write token next ih =>
    have hlater : Beside shorter (first.write token) (second.write token) (next.run visitor (first.write token))
        (next.run visitor' (second.write token)) := ih heager henclosing
    rw [Script.run, Script.run]
    exact hlater.after rfl rfl rfl rfl
  | context next ih =>
    have hlater := ih first.enclosing (heager first.enclosing) henclosing
    rw [Script.run, Script.run, ← henclosing]
    exact hlater
  | visit node next ih =>
    have hfirst := hkeeps node first
    have hsecond := hkeeps' node second
    have hsame : (visitor node first).2.enclosing = (visitor' node second).2.enclosing := by
      rw [hfirst.enclosing, hsecond.enclosing, henclosing]
    exact (hvisit node first second henclosing).next hfirst hsecond heager.1 (ih _ heager.2 hsame)
  | visitArgs node enclosing next ih =>
    have hfirst := Visitor.visitArgs_keeps hkeeps node enclosing first
    have hsecond := Visitor.visitArgs_keeps hkeeps' node enclosing second
    have hsame : (visitor.visitArgs node enclosing first).2.enclosing =
        (visitor'.visitArgs node enclosing second).2.enclosing := by
      rw [hfirst.enclosing, hsecond.enclosing, henclosing]
    have hnext (outcome : Outcome) := ih outcome (heager.2 outcome) hsame
    by_cases hkind : node.kind = .args
    · have hlist : Beside shorter first second (visitor.visitArgs node enclosing first)
          (visitor'.visitArgs node enclosing second) := by
        rw [visitArgs_list visitor hkind, visitArgs_list visitor' hkind]
        exact (hvisit node { first with enclosing } { second with enclosing } rfl).within rfl rfl rfl rfl rfl rfl
      exact hlist.next hfirst hsecond (heager.1 hkind) (hnext _)
    · -- the list is refused by both, and neither has done anything
      unfold Visitor.visitArgs at hnext
      rw [Script.run, Script.run, Visitor.visitArgs, Visitor.visitArgs]
      simp only [if_neg hkind] at hnext ⊢
      exact hnext _

/-- Only a parameter list is rendered by the construct around it. -/
theorem renderNode_of_kind_ne {host : Host} {node : Node} (h : node.kind ≠ .args) (enclosing another : Enclosing) :
    renderNode host node enclosing = renderNode host node another := by
  unfold renderNode
  split
  · rename_i hkind
    cases hparam : Param.ofNode node with
    | error error => rfl
    | ok param =>
      have hargs : param.kind ≠ .args := by
        rw [Param.kind_ofNode hkind hparam]
        exact h
      change renderParam param enclosing = renderParam param another
      cases param with
      | args list => exact absurd rfl hargs
      | _ => rfl
  · rfl

/-! ## Visits -/

/-- On the way into a node and out of it nothing is added. -/
theorem Beside.visited {shorter : Prop} {first second : Emitter} {node : Node} {run run' : Outcome × Emitter}
    (h : Beside shorter (first.enter node) (second.enter node) run run') :
    Beside shorter first second (run.1, (run.2.leave first.enclosing).record run.1)
      (run'.1, (run'.2.leave second.enclosing).record run'.1) := by
  have hout (outcome : Outcome) (inside : Emitter) (enclosing : Enclosing) :
      ((inside.leave enclosing).record outcome).output = inside.output := by
    cases outcome <;> rfl
  exact h.within rfl rfl rfl rfl (hout run.1 run.2 _) (hout run'.1 run'.2 _)

/-- **Run.** Two visits of a node run side by side if the first has no more levels left than the second, by induction on
those of the first. -/
theorem descend_beside {host : Host} (heager : host.Eager) {levels levels' : Nat} (hlevels : levels ≤ levels')
    (node : Node) {first second : Emitter} (henclosing : node.kind = .args → first.enclosing = second.enclosing) :
    Beside (levels < levels') first second (Emitter.descend host levels node first)
      (Emitter.descend host levels' node second) := by
  induction levels generalizing levels' node first second with
  | zero =>
    cases levels' with
    | zero =>
      refine Or.inr ⟨Or.inr ⟨rfl, rfl⟩, "", ?_, ?_⟩ <;> simp [Emitter.descend, Emitter.record]
    | succ levels' => exact Or.inl ⟨Nat.succ_pos levels', rfl⟩
  | succ levels ih =>
    obtain ⟨later, rfl⟩ : ∃ later, levels' = later + 1 := ⟨levels' - 1, by omega⟩
    have hrender : renderNode host node second.enclosing = renderNode host node first.enclosing := by
      by_cases hkind : node.kind = .args
      · rw [henclosing hkind]
      · exact renderNode_of_kind_ne hkind _ _
    have hkeeps (levels : Nat) (node : Node) (emitter : Emitter) :
        Keeps emitter (Emitter.descend host levels node emitter).2 :=
      (Stretch.descend_sound 0 host levels node emitter).1
    have hvisit (child : Node) (inside inside' : Emitter) (hinside : inside.enclosing = inside'.enclosing) :
        Beside (levels < later) inside inside' (Emitter.descend host levels child inside)
          (Emitter.descend host later child inside') :=
      ih (Nat.le_of_succ_le_succ hlevels) child fun _ => hinside
    have hsame : (first.enter node).enclosing = (second.enter node).enclosing := rfl
    have hscript := Script.beside (hkeeps levels) (hkeeps later) hvisit (renderNode host node first.enclosing).run
      (renderNode_eager heager node first.enclosing) hsame
    rw [Emitter.descend, Emitter.descend, hrender, Nat.add_lt_add_iff_right]
    exact hscript.visited

/-! ## Main result -/

/-- visiting the node comes to the same from either emitter -/
def SameVisit (node : Node) (first second : Emitter) : Prop :=
  Same first second (Emitter.visitor Host.basic node first) (Emitter.visitor Host.basic node second)

theorem sameVisit_of_room {node : Node} {first second : Emitter}
    (hroom : first.limit - first.depth = second.limit - second.depth)
    (henclosing : node.kind = .args → first.enclosing = second.enclosing) : SameVisit node first second := by
  have hbeside := descend_beside Host.basic_eager (Nat.le_of_eq hroom) node henclosing
  exact hbeside.resolve_left fun ⟨hshorter, _⟩ => absurd hroom (Nat.ne_of_lt hshorter)

/-- **Rendering is transparent.** With the host for Ruby, take two emitters with the same number of levels left, whatever
text they hold and whatever failure they have recorded. If they stand in the same construct, visiting a node comes to the
same from both, on success and on error, but for the limit that an error about the depth names; and for any node but a
parameter list they may stand in different ones. Inside of the node, at any moment of its rendering from either emitter,
the construct that it stands in no longer counts for anything that is visited there. -/
theorem visit_transparent (node : Node) {first second : Emitter}
    (hroom : first.limit - first.depth = second.limit - second.depth) :
    ((node.kind = .args → first.enclosing = second.enclosing) → SameVisit node first second) ∧
      ∀ (child : Node) (inside inside' : Emitter), Keeps (first.enter node) inside → Keeps (second.enter node) inside' →
        SameVisit child inside inside' := by
  refine ⟨sameVisit_of_room hroom, ?_⟩
  intro child inside inside' hinside hinside'
  have hlevels : inside.limit - inside.depth = inside'.limit - inside'.depth := by
    rw [hinside.limit, hinside.depth, hinside'.limit, hinside'.depth]
    simp only [Emitter.enter]
    omega
  refine sameVisit_of_room hlevels fun _ => ?_
  rw [hinside.enclosing, hinside'.enclosing]
  rfl

/-- A block whose parameter list is written between bars, visited at the start of a pass with three levels, and in the
middle of one that has already failed inside of a lambda and has three of its five levels left. -/
theorem visit_transparent_block :
    let params := Node.ofNodes .args [.mk .arg [.symbol "x"]]
    let block := Node.mk .block [.ofNode (.mk .send [.nil, .symbol "each"]), .ofNode params, .nil]
    let used : Emitter :=
      { limit := 5, depth := 2, enclosing := .lambda, output := ⟨"x = "⟩, failure := some (.unsupported .lambda) }
    SameVisit block (.start 3) used := by
  intro params block used
  have hroom : (Emitter.start 3).limit - (Emitter.start 3).depth = used.limit - used.depth := rfl
  exact (visit_transparent block hroom).1 fun hkind => absurd hkind (by decide)

end RubySignature
