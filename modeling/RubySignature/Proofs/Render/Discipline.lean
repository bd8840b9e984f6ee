/-
What every call on an emitter leaves as it found it.

Whatever a host does with the outcomes of its visits, and wherever in the tree a failure arises, a call keeps the depth
and the enclosing construct, adds to the end of the text only, and does not touch a failure that is recorded already
(`Keeps`). `emitter_discipline` says so of every request of a pass, from outside or from the renderer of any node, and
adds that the depth never passes the limit and that a renderer sees its own node as the enclosing construct, at its start
and before and after each of its requests.

The enclosing construct is set in two places, on the way into a node and for a list that is rendered as if it stood
elsewhere. Both put it back on the way out, whatever the outcome, and the invariant is carried by the emitter alone, so it
does not matter which errors a renderer looks at.
-/
import RubySignature.Proofs.Render.Log

namespace RubySignature

/-! ## What a call keeps -/

/-- `after` has kept what a call must not change in `before` -/
structure Keeps (before after : Emitter) : Prop where
  limit : after.limit = before.limit
  depth : after.depth = before.depth
  enclosing : after.enclosing = before.enclosing
  /-- text is only added at the end -/
  text : ∃ added, after.output.text = before.output.text ++ added
  /-- a recorded failure is neither cleared nor replaced -/
  failure : ∀ error, before.failure = some error → after.failure = some error

namespace Keeps

theorem refl (emitter : Emitter) : Keeps emitter emitter :=
  ⟨rfl, rfl, rfl, ⟨"", by simp⟩, fun _ h => h⟩

theorem trans {first second third : Emitter} (h₁ : Keeps first second) (h₂ : Keeps second third) :
    Keeps first third := by
  obtain ⟨added₁, e₁⟩ := h₁.text
  obtain ⟨added₂, e₂⟩ := h₂.text
  exact ⟨h₂.limit.trans h₁.limit, h₂.depth.trans h₁.depth, h₂.enclosing.trans h₁.enclosing,
    ⟨added₁ ++ added₂, by rw [e₂, e₁, String.append_assoc]⟩, fun error h => h₂.failure error (h₁.failure error h)⟩

theorem write (emitter : Emitter) (token : String) : Keeps emitter (emitter.write token) :=
  ⟨rfl, rfl, rfl, ⟨token, rfl⟩, fun _ h => h⟩

theorem record (emitter : Emitter) (outcome : Outcome) : Keeps emitter (emitter.record outcome) := by
  cases outcome with
  | ok value => exact refl emitter
  | error error => exact ⟨rfl, rfl, rfl, ⟨"", by simp [Emitter.record]⟩, fun e h => by simp [Emitter.record, h]⟩

/-- A visit from a list rendered elsewhere: the enclosing construct is replaced before and put back after. -/
theorem replaced {emitter after : Emitter} {enclosing : Enclosing} (h : Keeps { emitter with enclosing } after) :
    Keeps emitter { after with enclosing := emitter.enclosing } :=
  ⟨h.limit, h.depth, rfl, h.text, h.failure⟩

/-- On the way out of a node the depth and the enclosing construct are put back. -/
theorem left {emitter inside : Emitter} {node : Node} (h : Keeps (emitter.enter node) inside) :
    Keeps emitter (inside.leave emitter.enclosing) := by
  refine ⟨h.limit, ?_, rfl, h.text, h.failure⟩
  have hdepth : inside.depth = emitter.depth + 1 := h.depth
  simp [Emitter.leave, hdepth]

end Keeps

theorem Visitor.visitArgs_keeps {visitor : Visitor} (h : ∀ node emitter, Keeps emitter (visitor node emitter).2)
    (node : Node) (enclosing : Enclosing) (emitter : Emitter) :
    Keeps emitter (visitor.visitArgs node enclosing emitter).2 := by
  unfold Visitor.visitArgs
  split
  · exact (h node _).replaced
  · exact Keeps.refl emitter

/-! ## What a log shows -/

/-- an entry of the log of a pass with the given limit shows nothing amiss -/
def Event.Disciplined (limit : Nat) : Event → Prop
  | .entered node inside => inside.depth ≤ limit ∧ inside.enclosing = .ofParent node
  | .visited _ _ => True
  | .served owner? _ _ before after =>
    Keeps before after ∧ before.depth ≤ limit ∧ after.depth ≤ limit ∧
      ∀ node, owner? = some node → before.enclosing = .ofParent node ∧ after.enclosing = .ofParent node

/-- the emitter belongs to a pass with the given limit and may still go down a number of levels -/
structure Emitter.Within (limit levels : Nat) (emitter : Emitter) : Prop where
  same_limit : emitter.limit = limit
  has_room : emitter.depth + levels ≤ limit

theorem Keeps.within {limit levels : Nat} {before after : Emitter} (h : Keeps before after)
    (hbefore : before.Within limit levels) : after.Within limit levels :=
  ⟨h.limit.trans hbefore.same_limit, h.depth ▸ hbefore.has_room⟩

namespace Stretch

/-- a visit with a number of levels left keeps what it should, and so does all that happens in it -/
def VisitSound (limit levels : Nat) : Stretch := fun before log after =>
  Keeps before after ∧ (before.Within limit levels → ∀ event ∈ log, event.Disciplined limit)

/-- the same of a part of the renderer of `owner?`, provided that the renderer sees its own node around it -/
def RendererSound (limit levels : Nat) (owner? : Option Node) : Stretch := fun before log after =>
  Keeps before after ∧
    (before.Within limit levels → (∀ node, owner? = some node → before.enclosing = .ofParent node) →
      ∀ event ∈ log, event.Disciplined limit)

variable {limit levels : Nat} {owner? : Option Node}

/-- A request that keeps what it should makes a sound part together with the log of the visit in it. -/
theorem RendererSound.request {before after : Emitter} (visitLog : List Event) (request : Request) (outcome : Outcome)
    (hkeeps : Keeps before after)
    (hlog : before.Within limit levels → ∀ event ∈ visitLog, event.Disciplined limit) :
    RendererSound limit levels owner? before (visitLog ++ [.served owner? request outcome before after]) after := by
  refine ⟨hkeeps, ?_⟩
  intro hwithin howner event hevent
  rcases List.mem_append.1 hevent with hvisit | hserved
  · exact hlog hwithin event hvisit
  · rw [List.mem_singleton] at hserved
    subst hserved
    have hbefore : before.depth ≤ limit := Nat.le_of_add_right_le hwithin.has_room
    refine ⟨hkeeps, hbefore, hkeeps.depth ▸ hbefore, ?_⟩
    intro node hnode
    rw [hkeeps.enclosing]
    exact ⟨howner node hnode, howner node hnode⟩

theorem RendererSound.join {first second third : Emitter} {log later : List Event}
    (h₁ : RendererSound limit levels owner? first log second)
    (h₂ : RendererSound limit levels owner? second later third) :
    RendererSound limit levels owner? first (log ++ later) third := by
  refine ⟨h₁.1.trans h₂.1, ?_⟩
  intro hwithin howner event hevent
  rcases List.mem_append.1 hevent with hlog | hlater
  · exact h₁.2 hwithin howner event hlog
  · apply h₂.2 (h₁.1.within hwithin) _ event hlater
    intro node hnode
    rw [h₁.1.enclosing]
    exact howner node hnode

/-- **Step.** Where visits are sound, each request of a renderer is. -/
theorem rendererSound_composable (owner? : Option Node) {visitor : Visitor} {visitLog : VisitLog}
    (hvisit : ∀ node emitter, VisitSound limit levels emitter (visitLog node emitter) (visitor node emitter).2) :
    Composable owner? visitor visitLog (RendererSound limit levels owner?) where
  nothing emitter := ⟨Keeps.refl emitter, fun _ _ event hevent => absurd hevent List.not_mem_nil⟩
  join := RendererSound.join
  write emitter token := RendererSound.request [] _ _ (Keeps.write emitter token) (by simp)
  context emitter := RendererSound.request [] _ _ (Keeps.refl emitter) (by simp)
  visit emitter node := RendererSound.request _ _ _ (hvisit node emitter).1 (hvisit node emitter).2
  visitArgs emitter node enclosing := by
    refine RendererSound.request _ _ _ (Visitor.visitArgs_keeps (fun node emitter => (hvisit node emitter).1) _ _ _) ?_
    intro hwithin
    split
    · exact (hvisit node { emitter with enclosing }).2 ⟨hwithin.same_limit, hwithin.has_room⟩
    · simp

/-- **Run.** Visits are sound at every depth, by induction on the levels that are left. -/
theorem descend_sound (limit : Nat) (host : Host) (levels : Nat) (node : Node) (emitter : Emitter) :
    VisitSound limit levels emitter (Emitter.descendLog host levels node emitter)
      (Emitter.descend host levels node emitter).2 := by
  induction levels generalizing node emitter with
  | zero =>
    refine ⟨Keeps.record emitter (.error (.depthExceeded emitter.limit)), ?_⟩
    intro _ event hevent
    rw [Emitter.descendLog, List.mem_singleton] at hevent
    subst hevent
    trivial
  | succ levels ih =>
    have hscript := script (rendererSound_composable (some node) ih)
      (renderNode host node emitter.enclosing).run (emitter.enter node)
    refine ⟨hscript.1.left.trans (Keeps.record _ _), ?_⟩
    intro hwithin event hevent
    have hdepth : (emitter.enter node).depth + levels ≤ limit := by
      have := hwithin.has_room
      simp only [Emitter.enter]
      omega
    simp only [Emitter.descendLog, List.cons_append, List.mem_cons, List.mem_append, List.not_mem_nil,
      or_false] at hevent
    rcases hevent with rfl | hevent | rfl
    · exact ⟨Nat.le_of_add_right_le hdepth, rfl⟩
    · apply hscript.2 ⟨hwithin.same_limit, hdepth⟩ _ event hevent
      intro owner howner
      cases howner
      rfl
    · trivial

/-- From outside a visit has as many levels as the limit leaves at the depth of the emitter. -/
theorem visitor_sound (limit : Nat) (host : Host) (node : Node) (emitter : Emitter) :
    VisitSound limit 0 emitter (Emitter.descendLog host (emitter.limit - emitter.depth) node emitter)
      (Emitter.visitor host node emitter).2 := by
  have h := descend_sound limit host (emitter.limit - emitter.depth) node emitter
  refine ⟨h.1, fun hwithin => h.2 ⟨hwithin.same_limit, ?_⟩⟩
  have hlimit := hwithin.same_limit
  have hdepth := hwithin.has_room
  omega

end Stretch

theorem Script.run_descend_keeps {α : Type} (host : Host) (levels : Nat) (script : Script α) (emitter : Emitter) :
    Keeps emitter (script.run (Emitter.descend host levels) emitter).2 :=
  (Stretch.script (Stretch.rendererSound_composable none
    (Stretch.descend_sound 0 host levels)) script emitter).1

theorem Emitter.after_keeps {α : Type} (emitter : Emitter) (host : Host) (calls : Script α) :
    Keeps emitter (emitter.after host calls) :=
  (Stretch.script (Stretch.rendererSound_composable none
    (Stretch.visitor_sound 0 host)) calls emitter).1

/-! ## Main result -/

/-- **Emitter discipline.** For every host and limit, and every course of calls on a fresh emitter, whatever the caller
and the host make of the errors they get: every request in the log of the pass keeps depth, enclosing construct, text and
failure as `Keeps` says, no moment of the pass is deeper than the limit, and a renderer finds its own node as the
enclosing construct when it starts and before and after each of its requests. The same `Keeps` holds of anything put
together from requests, such as a delimited list or something in parentheses, from outside as well as with any number of
levels left inside the pass. -/
theorem emitter_discipline (host : Host) (limit : Nat) {α : Type} (calls : Script α) :
    (∀ event ∈ (Emitter.start limit).logOf host calls, event.Disciplined limit) ∧
      (∀ (emitter : Emitter) (part : RenderM Unit), Keeps emitter (emitter.perform host part).2) ∧
      ∀ (levels : Nat) (emitter : Emitter) (part : RenderM Unit),
        Keeps emitter (part.run.run (Emitter.descend host levels) emitter).2 := by
  refine ⟨?_, fun emitter part => emitter.after_keeps host part.run, fun levels emitter part =>
    Script.run_descend_keeps host levels part.run emitter⟩
  have hcalls := Stretch.script (Stretch.rendererSound_composable none
    (Stretch.visitor_sound limit host)) calls (Emitter.start limit)
  exact hcalls.2 ⟨rfl, Nat.zero_le limit⟩ (by simp)

/-- a parameter list with a parameter that has no name -/
def namelessList : Node := .ofNodes .args [⟨.arg, [.int 1]⟩]

def namelessBlock : Node := ⟨.block, [.ofNode ⟨.send, [.nil, .symbol "foo"]⟩, .ofNode namelessList, .nil]⟩

/-- The list fails two levels down, inside of the block, and the block's renderer still finds itself in the block. -/
theorem emitter_discipline_namelessBlock :
    ∃ before after, .served (some namelessBlock) (.visit namelessList)
        (.error (.shape (.childType .arg 0 .symbol))) before after ∈
          (Emitter.start 3).logOf Host.basic (RenderM.visit namelessBlock).run ∧
      Keeps before after ∧ before.depth ≤ 3 ∧ after.enclosing = .block := by
  have hmem : ∃ before after, .served (some namelessBlock) (.visit namelessList)
      (.error (.shape (.childType .arg 0 .symbol))) before after ∈
        (Emitter.start 3).logOf Host.basic (RenderM.visit namelessBlock).run :=
    ⟨_, _, List.mem_of_getElem? (i := 12) rfl⟩
  obtain ⟨before, after, hmem⟩ := hmem
  obtain ⟨hkeeps, hdepth, -, howner⟩ :=
    (emitter_discipline Host.basic 3 (RenderM.visit namelessBlock).run).1 _ hmem
  exact ⟨before, after, hmem, hkeeps, hdepth, (howner _ rfl).2⟩

end RubySignature
