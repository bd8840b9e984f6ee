/-
What a finished pass gives back.

The emitter keeps the error of the first visit that fails and appends every token, so the end of a pass can be told from
its log alone: the error of the earliest failing visit, where one inside another comes first, or else all tokens in order
(`outcomeOf`). `finish_eq_outcomeOf` says so for every host and every course of calls, also when hosts or callers drop the
errors they get. For an eager host the error of a whole pass over a tree is that earliest one as well.
-/
import RubySignature.Proofs.Render.Eager
import RubySignature.Proofs.Render.Log

namespace RubySignature

/-! ## Reading a log -/

def Request.token? : Request → Option String
  | .write token => some token
  | .context | .visit _ | .visitArgs _ _ => none

namespace Event

/-- the error of a visit that failed -/
def failure? : Event → Option EmitError
  | .visited _ (.error error) => some error
  | .visited _ (.ok _) | .entered _ _ | .served _ _ _ _ _ => none

def token? : Event → Option String
  | .served _ request _ _ _ => request.token?
  | .entered _ _ | .visited _ _ => none

/-- the errors of all failing visits, the earliest first -/
def failures (log : List Event) : List EmitError := log.filterMap failure?

def text (log : List Event) : String := String.join (log.filterMap token?)

/-- What a pass with the given log comes to: the earliest error, or all that was written. -/
def outcomeOf (log : List Event) : Except EmitError String :=
  match failures log with
  | error :: _ => .error error
  | [] => .ok (text log)

@[simp] theorem failures_nil : failures [] = [] := rfl

@[simp] theorem text_nil : text [] = "" := by simp [text]

@[simp] theorem failures_cons (event : Event) (log : List Event) :
    failures (event :: log) = event.failure?.toList ++ failures log := by
  cases h : event.failure? <;> simp [failures, h]

@[simp] theorem text_cons (event : Event) (log : List Event) :
    text (event :: log) = event.token?.getD "" ++ text log := by
  cases h : event.token? <;> simp [text, h]

@[simp] theorem failures_append (log later : List Event) :
    failures (log ++ later) = failures log ++ failures later := List.filterMap_append

@[simp] theorem text_append (log later : List Event) : text (log ++ later) = text log ++ text later := by
  simp [text]

theorem mem_failures {log : List Event} {error : EmitError} :
    error ∈ failures log ↔ ∃ node, .visited node (.error error) ∈ log := by
  unfold failures
  rw [List.mem_filterMap]
  constructor
  · rintro ⟨event, hmem, hevent⟩
    cases event with
    | visited node outcome =>
      cases outcome with
      | ok value => simp [failure?] at hevent
      | error found =>
        obtain rfl : found = error := by simpa [failure?] using hevent
        exact ⟨node, hmem⟩
    | entered | served => simp [failure?] at hevent
  · rintro ⟨node, hmem⟩
    exact ⟨_, hmem, rfl⟩

theorem outcomeOf_error_iff {log : List Event} :
    (∃ error, outcomeOf log = .error error) ↔ ∃ node error, .visited node (.error error) ∈ log := by
  unfold outcomeOf
  constructor
  · rintro ⟨error, h⟩
    split at h
    next first later hfailures =>
      obtain ⟨node, hnode⟩ := mem_failures.1 (hfailures ▸ List.mem_cons_self : first ∈ failures log)
      exact ⟨node, first, hnode⟩
    next => cases h
  · rintro ⟨node, error, h⟩
    have hmem := mem_failures.2 ⟨node, h⟩
    cases hfailures : failures log with
    | nil => simp [hfailures] at hmem
    | cons first later => exact ⟨first, rfl⟩

end Event

/-! ## The recorded failure -/

/-- the emitter after has the text and the failure that the log of the part before it adds -/
def Stretch.Accounted : Stretch := fun before log after =>
  after.failure = before.failure.or (Event.failures log).head? ∧
    after.output.text = before.output.text ++ Event.text log

namespace Stretch

theorem Accounted.join {first second third : Emitter} {log later : List Event} (h₁ : Accounted first log second)
    (h₂ : Accounted second later third) : Accounted first (log ++ later) third := by
  obtain ⟨f₁, t₁⟩ := h₁
  obtain ⟨f₂, t₂⟩ := h₂
  constructor
  · rw [f₂, f₁, Event.failures_append, List.head?_append, Option.or_assoc]
  · rw [t₂, t₁, Event.text_append, String.append_assoc]

/-- A request that writes nothing of its own adds what the visit in it adds. -/
theorem Accounted.request {owner? : Option Node} {request : Request} {outcome : Outcome}
    {before shown after : Emitter} {visitLog : List Event} (hrequest : request.token? = none)
    (h : Accounted before visitLog after) :
    Accounted before (visitLog ++ [.served owner? request outcome shown after]) after := by
  have hserved : Accounted after [.served owner? request outcome shown after] after :=
    ⟨by simp [Event.failure?], by simp [Event.token?, hrequest]⟩
  exact h.join hserved

/-- A visit that has been inside a node adds its own outcome last. -/
theorem Accounted.visited {emitter inside : Emitter} {node : Node} {log : List Event} (outcome : Outcome)
    (h : Accounted (emitter.enter node) log inside) :
    Accounted emitter (.entered node (emitter.enter node) :: log ++ [.visited node outcome])
      ((inside.leave emitter.enclosing).record outcome) := by
  obtain ⟨hf, ht⟩ := h
  change inside.failure = emitter.failure.or _ at hf
  change inside.output.text = emitter.output.text ++ _ at ht
  have hlog : Accounted emitter (.entered node (emitter.enter node) :: log) (inside.leave emitter.enclosing) :=
    ⟨hf, ht⟩
  refine hlog.join ⟨?_, ?_⟩
  · cases outcome <;> simp [Event.failure?, Emitter.record]
  · cases outcome <;> simp [Event.token?, Emitter.record]

/-- **Step.** Where visits are accounted for, each request of a renderer is. -/
theorem accounted_composable (owner? : Option Node) {visitor : Visitor} {visitLog : VisitLog}
    (hvisit : ∀ node emitter, Accounted emitter (visitLog node emitter) (visitor node emitter).2) :
    Composable owner? visitor visitLog Accounted where
  nothing emitter := ⟨by simp, by simp⟩
  join := Accounted.join
  write emitter token := ⟨by simp [Event.failure?, Emitter.write],
    by simp [Event.token?, Request.token?, Emitter.write, Output.write]⟩
  context emitter := ⟨by simp [Event.failure?], by simp [Event.token?, Request.token?]⟩
  visit emitter node := (hvisit node emitter).request rfl
  visitArgs emitter node enclosing := by
    refine Accounted.request rfl ?_
    unfold Visitor.visitArgs
    split
    · exact hvisit node { emitter with enclosing }
    · exact ⟨by simp, by simp⟩

/-- **Run.** Visits are accounted for at every depth, by induction on the levels that are left. -/
theorem descend_accounted (host : Host) (levels : Nat) (node : Node) (emitter : Emitter) :
    Accounted emitter (Emitter.descendLog host levels node emitter) (Emitter.descend host levels node emitter).2 := by
  induction levels generalizing node emitter with
  | zero => exact ⟨rfl, by simp [Emitter.descendLog, Event.token?, Emitter.descend, Emitter.record]⟩
  | succ levels ih =>
    have hinside := script (accounted_composable (some node) ih)
      (renderNode host node emitter.enclosing).run (emitter.enter node)
    exact hinside.visited _

end Stretch

theorem Emitter.after_accounted {α : Type} (emitter : Emitter) (host : Host) (calls : Script α) :
    Stretch.Accounted emitter (emitter.logOf host calls) (emitter.after host calls) :=
  Stretch.script (Stretch.accounted_composable none fun node emitter =>
    Stretch.descend_accounted host (emitter.limit - emitter.depth) node emitter) calls emitter

theorem Emitter.finish_after_start {α : Type} (host : Host) (limit : Nat) (calls : Script α) :
    ((Emitter.start limit).after host calls).finish = Event.outcomeOf ((Emitter.start limit).logOf host calls) := by
  obtain ⟨hf, ht⟩ := (Emitter.start limit).after_accounted host calls
  unfold Emitter.finish Event.outcomeOf
  rw [hf, ht]
  cases Event.failures ((Emitter.start limit).logOf host calls) with
  | nil => simp [Emitter.start]
  | cons error later => simp [Emitter.start]

/-! ## Eager hosts -/

/-- the result of an eager renderer whose visits failed with `errors`: a success only if there are none, the first of them
if there are some, and otherwise possibly an error of its own -/
def PassesOn {α : Type} (errors : List EmitError) : Except EmitError α → Prop
  | .ok _ => errors = []
  | .error error => errors = [] ∨ errors.head? = some error

/-- the outcome of a visit with an eager host: the first error among those of the visit and of the visits in it -/
def Explained (errors : List EmitError) (outcome : Outcome) : Prop := outcome = errors.head?.elim (.ok ()) .error

theorem Explained.ok {errors : List EmitError} (h : Explained errors (.ok ())) : errors = [] := by
  cases errors with
  | nil => rfl
  | cons error later => cases h

theorem Explained.error {errors : List EmitError} {error : EmitError} (h : Explained errors (.error error)) :
    errors.head? = some error := by
  cases errors with
  | nil => cases h
  | cons first later => cases h; rfl

/-- A visit adds its own error last, so it is the first one only where nothing inside has failed. -/
theorem PassesOn.explained {errors : List EmitError} {outcome : Outcome} (h : PassesOn errors outcome) (node : Node) :
    Explained (errors ++ (Event.visited node outcome).failure?.toList) outcome := by
  cases outcome with
  | ok value =>
    change errors = [] at h
    subst h
    rfl
  | error error =>
    rcases h with rfl | hfirst
    · rfl
    · cases errors with
      | nil => cases hfirst
      | cons first later => cases hfirst; rfl

namespace Stretch

variable {visitor : Visitor} {visitLog : VisitLog}

/-- **Step.** The script of an eager renderer passes on the first failure among its visits. -/
theorem eager_passesOn {α : Type} (owner? : Option Node)
    (hvisit : ∀ node emitter, Explained (Event.failures (visitLog node emitter)) (visitor node emitter).1)
    (script : Script (Except EmitError α)) (heager : script.Eager) (emitter : Emitter) :
    PassesOn (Event.failures (script.log owner? visitor visitLog emitter)) (script.run visitor emitter).1 := by
  induction script generalizing emitter with
  | done result =>
    cases result with
    | ok value => rfl
    | error error => exact .inl rfl
  | write token next ih => exact ih heager _
  | context next ih => exact ih _ (heager _) _
  | visit node next ih =>
    have hnode := hvisit node emitter
    simp only [Script.log, Script.run, Event.failures_append, Event.failures_cons, Event.failure?]
    cases houtcome : (visitor node emitter).1 with
    | ok value =>
      rw [houtcome] at hnode
      rw [hnode.ok]
      exact ih _ heager.2 _
    | error error =>
      rw [houtcome] at hnode
      rw [heager.1 error]
      exact .inr (by simp [Script.log, hnode.error])
  | visitArgs node enclosing next ih =>
    simp only [Script.log, Script.run, Visitor.visitArgs, Event.failures_append, Event.failures_cons, Event.failure?]
    split
    next hkind =>
      have hnode := hvisit node { emitter with enclosing }
      cases houtcome : (visitor node { emitter with enclosing }).1 with
      | ok value =>
        rw [houtcome] at hnode
        rw [hnode.ok]
        exact ih _ (heager.2 _) _
      | error error =>
        rw [houtcome] at hnode
        rw [heager.1 hkind error]
        exact .inr (by simp [Script.log, hnode.error])
    next => exact ih _ (heager.2 _) _

/-- **Run.** With an eager host the outcome of a visit is its earliest failure, by induction on the levels left. -/
theorem descend_explained {host : Host} (heager : host.Eager) (levels : Nat) (node : Node) (emitter : Emitter) :
    Explained (Event.failures (Emitter.descendLog host levels node emitter))
      (Emitter.descend host levels node emitter).1 := by
  induction levels generalizing node emitter with
  | zero => rfl
  | succ levels ih =>
    have hinside := eager_passesOn (some node) ih (renderNode host node emitter.enclosing).run
      (renderNode_eager heager node emitter.enclosing) (emitter.enter node)
    simpa [Emitter.descendLog, Emitter.descend, Event.failure?] using hinside.explained node

end Stretch

/-! ## Main result -/

def passLog (host : Host) (limit : Nat) (node : Node) : List Event :=
  (Emitter.start limit).logOf host (RenderM.visit node).run

/-- A pass over a tree ends with the outcome of its outermost visit, or else as its log says. -/
theorem unparseWith_eq_bind (host : Host) (limit : Nat) (node : Node) :
    unparseWith host limit node =
      (Emitter.visitor host node (Emitter.start limit)).1.bind fun () => Event.outcomeOf (passLog host limit node) := by
  rw [passLog, ← Emitter.finish_after_start]
  rfl

theorem failures_of_unparseWith_ok {host : Host} {limit : Nat} {node : Node} {text : String}
    (h : unparseWith host limit node = .ok text) : Event.failures (passLog host limit node) = [] := by
  rw [unparseWith_eq_bind] at h
  cases houtcome : (Emitter.visitor host node (Emitter.start limit)).1 with
  | ok value =>
    rw [houtcome] at h
    change Event.outcomeOf _ = _ at h
    unfold Event.outcomeOf at h
    split at h
    · cases h
    · assumption
  | error error =>
    rw [houtcome] at h
    cases h

theorem passLog_explained {host : Host} (heager : host.Eager) (limit : Nat) (node : Node) :
    Explained (Event.failures (passLog host limit node)) (Emitter.visitor host node (Emitter.start limit)).1 := by
  have hlog : passLog host limit node = Emitter.descendLog host limit node (Emitter.start limit) ++
      [.served none (.visit node) (Emitter.visitor host node (Emitter.start limit)).1 (Emitter.start limit)
        (Emitter.visitor host node (Emitter.start limit)).2] := rfl
  have hdescend : Explained (Event.failures (Emitter.descendLog host limit node (Emitter.start limit)))
      (Emitter.visitor host node (Emitter.start limit)).1 :=
    Stretch.descend_explained heager limit node (Emitter.start limit)
  rw [hlog, Event.failures_append, Event.failures_cons, Event.failure?]
  simpa using hdescend

theorem unparseWith_of_eager {host : Host} (heager : host.Eager) (limit : Nat) (node : Node) :
    unparseWith host limit node = Event.outcomeOf (passLog host limit node) := by
  rw [unparseWith_eq_bind, passLog_explained heager limit node]
  unfold Event.outcomeOf
  cases Event.failures (passLog host limit node) with
  | nil => rfl
  | cons error later => rfl

theorem perform_visitArgs_of_kind_ne {host : Host} {node : Node} (h : node.kind ≠ .args) (enclosing : Enclosing)
    (emitter : Emitter) :
    emitter.perform host (RenderM.visitArgs node enclosing) = (.error (.unexpectedNode .args node.kind), emitter) ∧
      Event.failures (emitter.logOf host (RenderM.visitArgs node enclosing).run) = [] := by
  constructor
  · simp [Emitter.perform, RenderM.visitArgs, ExceptT.run, ExceptT.mk, Script.run, Visitor.visitArgs, h]
  · simp [Emitter.logOf, RenderM.visitArgs, ExceptT.run, ExceptT.mk, Script.log, h, Event.failure?]

/-- **No partial text, and the first failure wins.** For every host and limit, and every course of calls on a fresh
emitter, whatever the caller and the host make of the errors they get:
- `finish` fails exactly if a visit in the log of the pass failed, and then with the error of the earliest one; otherwise
  it gives all tokens written, in order;
- a list that is refused because it is no parameter list leaves the emitter as it was and is no failing visit;
- a pass over a tree succeeds only if no visit of it failed, and for an eager host, such as the one for Ruby, it comes to
  the earliest failure or to all tokens written. -/
theorem finish_eq_first_failure (host : Host) (limit : Nat) {α : Type} (calls : Script α) :
    ((Emitter.start limit).after host calls).finish = Event.outcomeOf ((Emitter.start limit).logOf host calls) ∧
      ((∃ error, ((Emitter.start limit).after host calls).finish = .error error) ↔
        ∃ node error, .visited node (.error error) ∈ (Emitter.start limit).logOf host calls) ∧
      (∀ (emitter : Emitter) (node : Node) (enclosing : Enclosing), node.kind ≠ .args →
        emitter.perform host (RenderM.visitArgs node enclosing) = (.error (.unexpectedNode .args node.kind), emitter) ∧
          Event.failures (emitter.logOf host (RenderM.visitArgs node enclosing).run) = []) ∧
      (∀ node text, unparseWith host limit node = .ok text → Event.failures (passLog host limit node) = []) ∧
      (host.Eager → ∀ node, unparseWith host limit node = Event.outcomeOf (passLog host limit node)) ∧
      Host.basic.Eager := by
  have hfinish := Emitter.finish_after_start host limit calls
  refine ⟨hfinish, ?_, fun emitter node enclosing h => perform_visitArgs_of_kind_ne h enclosing emitter,
    fun node text h => failures_of_unparseWith_ok h, fun heager node => unparseWith_of_eager heager limit node,
    Host.basic_eager⟩
  rw [hfinish, Event.outcomeOf_error_iff]

/-- a host that renders nothing of its own and drops the errors of its visits -/
def forgetfulHost : Host := fun node => node.nodes.forM fun child => ExceptT.mk (.visit child fun _ => .done (.ok ()))

def namelessArray : Node := .ofNodes .array [.leaf .nilLiteral, ⟨.arg, [.int 1]⟩]

/-- The outermost visit succeeds under a host that drops errors, and still no text comes out. -/
theorem finish_eq_first_failure_forgetful :
    ((Emitter.start 3).perform forgetfulHost (RenderM.visit namelessArray)).1 = .ok () ∧
      ((Emitter.start 3).after forgetfulHost (RenderM.visit namelessArray).run).finish =
        .error (.shape (.childType .arg 0 .symbol)) ∧
      unparseWith Host.basic 3 namelessArray = .error (.shape (.childType .arg 0 .symbol)) ∧
      (∃ text, unparseWith Host.basic 3 (.leaf .nilLiteral) = .ok text ∧
        Event.failures (passLog Host.basic 3 (.leaf .nilLiteral)) = []) ∧
      (Emitter.start 3).perform forgetfulHost (RenderM.visitArgs namelessArray .block) =
        (.error (.unexpectedNode .args .array), Emitter.start 3) := by
  obtain ⟨hfinish, -, hrefused, -, -, -⟩ :=
    finish_eq_first_failure forgetfulHost 3 (RenderM.visit namelessArray).run
  obtain ⟨-, -, -, hok, heager, hbasic⟩ :=
    finish_eq_first_failure Host.basic 3 (RenderM.visit namelessArray).run
  have htext : unparseWith Host.basic 3 (.leaf .nilLiteral) = .ok "nil" := rfl
  exact ⟨rfl, hfinish, heager hbasic namelessArray, ⟨"nil", htext, hok _ _ htext⟩,
    (hrefused (Emitter.start 3) namelessArray .block (by decide)).1⟩

end RubySignature
