/-
Which rows of parameters the slots of a signature let through.

`Slot.run?` moves a signature through a row of parameters. The slots are numbered in order, and each sort of parameter is
let through up to a slot of its own and moves no further than that, so a section of a signature is let through by its
bound alone (`run?_bounded`), and sections that follow each other have rising bounds.
-/
import RubySignature.Signature.Slot

namespace RubySignature.Signature

/-- the kinds of the parts of a pattern: one at least, and one splat at most -/
structure IsPattern (kinds : List Kind) : Prop where
  ne_nil : kinds ≠ []
  patterns : ∀ kind ∈ kinds, kind = .arg ∨ kind = .mlhs ∨ kind = .restarg
  one_splat : kinds.count .restarg ≤ 1

theorem IsPattern.parts_ne_nil {α : Type} {kind : α → Kind} {parts : List α} (h : IsPattern (parts.map kind)) :
    parts ≠ [] := by
  rintro rfl
  exact h.ne_nil rfl

namespace Slot

/-- The slot that a row of parameters moves the signature to, if all may follow. -/
def run? (slot : Slot) (kinds : List Kind) : Option Slot := kinds.foldlM next? slot

theorem run?_cons (slot : Slot) (kind : Kind) (later : List Kind) :
    slot.run? (kind :: later) = (slot.next? kind).bind fun next => next.run? later := rfl

theorem run?_append (slot : Slot) (kinds later : List Kind) :
    slot.run? (kinds ++ later) = (slot.run? kinds).bind fun next => next.run? later := by
  induction kinds generalizing slot with
  | nil => rfl
  | cons kind kinds ih =>
    rw [List.cons_append, run?_cons, run?_cons]
    cases slot.next? kind with
    | none => rfl
    | some next => exact ih next

/-- the row is let through and leaves the signature within the bound -/
def Passes (slot : Slot) (kinds : List Kind) (bound : Nat) : Prop :=
  ∃ last, slot.run? kinds = some last ∧ last.rank ≤ bound

theorem Passes.append {slot : Slot} {kinds later : List Kind} {low high : Nat} (h : slot.Passes kinds low)
    (hlater : ∀ next : Slot, next.rank ≤ low → next.Passes later high) : slot.Passes (kinds ++ later) high := by
  obtain ⟨next, hnext, hlow⟩ := h
  obtain ⟨last, hlast, hhigh⟩ := hlater next hlow
  refine ⟨last, ?_, hhigh⟩
  rw [run?_append, hnext]
  exact hlast

/-- A row of parameters that each are let through up to a bound and move no further. -/
theorem run?_bounded {kinds : List Kind} {bound : Nat}
    (hstep : ∀ kind ∈ kinds, ∀ slot : Slot, slot.rank ≤ bound → ∃ next, slot.next? kind = some next ∧ next.rank ≤ bound)
    {slot : Slot} (h : slot.rank ≤ bound) : slot.Passes kinds bound := by
  induction kinds generalizing slot with
  | nil => exact ⟨slot, rfl, h⟩
  | cons kind later ih =>
    obtain ⟨next, hnext, hbound⟩ := hstep kind List.mem_cons_self slot h
    obtain ⟨last, hlast, hlow⟩ := ih (fun kind hkind => hstep kind (List.mem_cons_of_mem _ hkind)) hbound
    refine ⟨last, ?_, hlow⟩
    rw [run?_cons, hnext]
    exact hlast

/-! ## Sections -/

variable {slot : Slot} {kinds : List Kind}

/-- parameters that must be given move the signature to the trailing ones at most, and not at all from the start -/
theorem passes_required (hkinds : ∀ kind ∈ kinds, kind = .arg ∨ kind = .mlhs) {bound : Nat}
    (hbound : bound = 0 ∨ bound = 3) (h : slot.rank ≤ bound) : slot.Passes kinds bound := by
  apply run?_bounded _ h
  intro kind hkind slot hslot
  rcases hkinds kind hkind with rfl | rfl <;> rcases hbound with rfl | rfl <;> cases slot <;>
    first | exact ⟨_, rfl, by decide⟩ | exact absurd hslot (by decide)

theorem passes_optional (hkinds : ∀ kind ∈ kinds, kind = .optarg) (h : slot.rank ≤ 1) : slot.Passes kinds 1 := by
  apply run?_bounded _ h
  intro kind hkind slot hslot
  rw [hkinds kind hkind]
  exact ⟨optional, if_pos hslot, by decide⟩

theorem passes_keywords (hkinds : ∀ kind ∈ kinds, kind = .kwarg ∨ kind = .kwoptarg) (h : slot.rank ≤ 4) :
    slot.Passes kinds 4 := by
  apply run?_bounded _ h
  intro kind hkind slot hslot
  refine ⟨keywords, ?_, by decide⟩
  rcases hkinds kind hkind with rfl | rfl <;> exact if_pos hslot

/-- at most one parameter of a sort that moves the signature from a lower bound to a higher one -/
theorem passes_one {kind : Kind} {low high : Nat} (hkinds : kinds = [] ∨ kinds = [kind]) (h : slot.rank ≤ low)
    (hle : low ≤ high) (hstep : ∀ slot : Slot, slot.rank ≤ low → ∃ next, slot.next? kind = some next ∧ next.rank ≤ high) :
    slot.Passes kinds high := by
  rcases hkinds with rfl | rfl
  · exact ⟨slot, rfl, Nat.le_trans h hle⟩
  · obtain ⟨next, hnext, hhigh⟩ := hstep slot h
    refine ⟨next, ?_, hhigh⟩
    rw [run?_cons, hnext]
    rfl

theorem passes_splat (hkinds : kinds = [] ∨ kinds = [.restarg]) (h : slot.rank ≤ 1) : slot.Passes kinds 2 :=
  passes_one hkinds h (by decide) fun _ hslot => ⟨rest, if_pos hslot, by decide⟩

theorem passes_keywordSplat (hkinds : kinds = [] ∨ kinds = [.kwrestarg]) (h : slot.rank ≤ 4) : slot.Passes kinds 5 :=
  passes_one hkinds h (by decide) fun _ hslot => ⟨keywordRest, if_pos hslot, by decide⟩

theorem passes_noKeywords (h : slot.rank ≤ 3) : slot.Passes [.kwnilarg] 5 :=
  passes_one (Or.inr rfl) h (by decide) fun _ hslot => ⟨keywordRest, if_pos hslot, by decide⟩

theorem passes_block (hkinds : kinds = [] ∨ kinds = [.blockarg]) (h : slot.rank ≤ 5) : slot.Passes kinds 6 :=
  passes_one hkinds h (by decide) fun _ hslot => ⟨block, if_pos hslot, by decide⟩

/-! ## Patterns -/

/-- A pattern is let through. -/
theorem passes_pattern (h : IsPattern kinds) : leading.Passes kinds 3 := by
  obtain ⟨_, hkinds, hsplat⟩ := h
  by_cases hmem : Kind.restarg ∈ kinds
  · -- what stands before the splat is leading, what stands after it trailing
    obtain ⟨before, after, rfl⟩ := List.append_of_mem hmem
    rw [List.count_append, List.count_cons_self] at hsplat
    have hrequired {section_ : List Kind} (hsub : ∀ kind ∈ section_, kind ∈ before ++ Kind.restarg :: after)
        (hcount : section_.count .restarg = 0) : ∀ kind ∈ section_, kind = .arg ∨ kind = .mlhs := by
      intro kind hkind
      rcases hkinds kind (hsub kind hkind) with h | h | h
      · exact Or.inl h
      · exact Or.inr h
      · exact absurd (h ▸ hkind) (List.count_eq_zero.1 hcount)
    have hbefore := hrequired (fun kind hkind => List.mem_append_left _ hkind) (by omega : before.count .restarg = 0)
    have hafter := hrequired (fun kind hkind => List.mem_append_right _ (List.mem_cons_of_mem _ hkind))
      (by omega : after.count .restarg = 0)
    have hleading : leading.Passes before 0 := passes_required hbefore (Or.inl rfl) (Nat.le_refl 0)
    apply hleading.append
    intro slot hslot
    obtain ⟨last, hlast, hrank⟩ : rest.Passes after 3 := passes_required hafter (Or.inr rfl) (by decide)
    refine ⟨last, ?_, hrank⟩
    rw [run?_cons, show slot.next? .restarg = some rest from if_pos (Nat.le_trans hslot (by decide))]
    exact hlast
  · apply passes_required _ (Or.inr rfl) (by decide)
    intro kind hkind
    rcases hkinds kind hkind with h | h | h
    · exact Or.inl h
    · exact Or.inr h
    · exact absurd (h ▸ hkind) hmem

end Slot

end RubySignature.Signature
