/-
Computations that may fail.

What succeeds has succeeded in each of its steps, and what fails has failed in one of them with the same error. A loop over
a list does what its body does at the elements.
-/
namespace RubySignature

variable {ε α β : Type} {first : Except ε α} {result : β} {error : ε}

theorem bind_ok_iff {next : α → Except ε β} :
    (first >>= next) = .ok result ↔ ∃ value, first = .ok value ∧ next value = .ok result := by
  constructor
  · intro h
    cases first with
    | error fault => cases h
    | ok value => exact ⟨value, rfl, h⟩
  · rintro ⟨value, rfl, hnext⟩
    exact hnext

theorem bind_error_iff {next : α → Except ε β} :
    (first >>= next) = .error error ↔ first = .error error ∨ ∃ value, first = .ok value ∧ next value = .error error := by
  constructor
  · intro h
    cases first with
    | error fault => exact Or.inl (congrArg Except.error (Except.error.inj h))
    | ok value => exact Or.inr ⟨value, rfl, h⟩
  · rintro (rfl | ⟨value, rfl, hnext⟩)
    · rfl
    · exact hnext

theorem bind_ne_error {next : α → Except ε β} (hfirst : first ≠ .error error)
    (hnext : ∀ value, next value ≠ .error error) : first >>= next ≠ .error error := by
  intro h
  rcases bind_error_iff.1 h with hstep | ⟨value, -, hstep⟩
  · exact hfirst hstep
  · exact hnext value hstep

theorem map_ok_iff {f : α → β} : first.map f = .ok result ↔ ∃ value, first = .ok value ∧ f value = result := by
  constructor
  · intro h
    cases first with
    | error fault => cases h
    | ok value => exact ⟨value, rfl, Except.ok.inj h⟩
  · rintro ⟨value, rfl, rfl⟩
    rfl

variable {elements : List α} {body : α → Except ε Unit}

theorem forM_ok_iff : forM elements body = .ok () ↔ ∀ element ∈ elements, body element = .ok () := by
  induction elements with
  | nil => exact ⟨fun _ => List.forall_mem_nil _, fun _ => rfl⟩
  | cons element later ih =>
    rw [List.forM_cons, bind_ok_iff, List.forall_mem_cons, ← ih]
    constructor
    · rintro ⟨_, helement, hlater⟩
      exact ⟨helement, hlater⟩
    · rintro ⟨helement, hlater⟩
      exact ⟨(), helement, hlater⟩

theorem exists_of_forM_error (h : forM elements body = .error error) :
    ∃ element ∈ elements, body element = .error error := by
  induction elements with
  | nil => cases h
  | cons element later ih =>
    rw [List.forM_cons, bind_error_iff] at h
    rcases h with helement | ⟨_, _, hlater⟩
    · exact ⟨element, List.mem_cons_self, helement⟩
    · obtain ⟨found, hfound, herror⟩ := ih hlater
      exact ⟨found, List.mem_cons_of_mem _ hfound, herror⟩

end RubySignature
