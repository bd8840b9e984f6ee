/-
The slots of a signature let nothing else through.

`InOrder.run?_ne_none` says that a signature in order is let through. Here is the other direction. What may come from a
slot on are the sections that are not over there (`Slot.Tail`), and an earlier slot leaves everything open that a later
one does. One parameter in front of such a row makes it a row for the slot the parameter came from (`Slot.Step.tail`), so
by induction on the row all that is let through is of this form. From the first slot on this is a signature in order, so
the slots let through exactly these (`inOrder_iff_run?`).
-/
import RubySignature.Proofs.Signature.Canonical

namespace RubySignature.Signature

/-! ## Single parameters -/

namespace Slot

/-- a parameter moves the signature from one slot to another -/
inductive Step : Slot → Kind → Slot → Prop where
  | leading {kind : Kind} (hkind : IsRequired kind) : Step leading kind leading
  | trailing {slot : Slot} {kind : Kind} (hkind : IsRequired kind) (hlow : 1 ≤ slot.rank) (h : slot.rank ≤ 3) :
      Step slot kind trailing
  | optional {slot : Slot} (h : slot.rank ≤ 1) : Step slot .optarg optional
  | splat {slot : Slot} (h : slot.rank ≤ 1) : Step slot .restarg rest
  | keyword {slot : Slot} {kind : Kind} (hkind : kind = .kwarg ∨ kind = .kwoptarg) (h : slot.rank ≤ 4) :
      Step slot kind keywords
  | keywordSplat {slot : Slot} (h : slot.rank ≤ 4) : Step slot .kwrestarg keywordRest
  | refusal {slot : Slot} (h : slot.rank ≤ 3) : Step slot .kwnilarg keywordRest
  | block {slot : Slot} (h : slot.rank ≤ 5) : Step slot .blockarg block
  | forwarding : Step leading .forwardArg forward

theorem step_required {slot next : Slot} {kind : Kind} (hkind : IsRequired kind) (h : slot.next? kind = some next) :
    Step slot kind next := by
  have hnext : slot = leading ∧ next = leading ∨ (1 ≤ slot.rank ∧ slot.rank ≤ 3) ∧ next = trailing := by
    rcases hkind with rfl | rfl <;> cases slot <;> simp_all [next?, rank]
  obtain ⟨rfl, rfl⟩ | ⟨⟨hlow, hhigh⟩, rfl⟩ := hnext
  · exact .leading hkind
  · exact .trailing hkind hlow hhigh

/-- a slot that is moved to under a condition -/
theorem eq_of_guarded {condition : Prop} [Decidable condition] {target next : Slot}
    (h : (if condition then some target else none) = some next) : condition ∧ target = next := by
  split at h
  · rename_i hcondition
    exact ⟨hcondition, Option.some.inj h⟩
  · cases h

theorem step_of_next? {slot next : Slot} {kind : Kind} (h : slot.next? kind = some next) : Step slot kind next := by
  cases kind with
  | arg => exact step_required (Or.inl rfl) h
  | mlhs => exact step_required (Or.inr rfl) h
  | optarg =>
    obtain ⟨hslot, rfl⟩ := eq_of_guarded h
    exact .optional hslot
  | restarg =>
    obtain ⟨hslot, rfl⟩ := eq_of_guarded h
    exact .splat hslot
  | kwarg =>
    obtain ⟨hslot, rfl⟩ := eq_of_guarded h
    exact .keyword (Or.inl rfl) hslot
  | kwoptarg =>
    obtain ⟨hslot, rfl⟩ := eq_of_guarded h
    exact .keyword (Or.inr rfl) hslot
  | kwrestarg =>
    obtain ⟨hslot, rfl⟩ := eq_of_guarded h
    exact .keywordSplat hslot
  | kwnilarg =>
    obtain ⟨hslot, rfl⟩ := eq_of_guarded h
    exact .refusal hslot
  | blockarg =>
    obtain ⟨hslot, rfl⟩ := eq_of_guarded h
    exact .block hslot
  | forwardArg =>
    obtain ⟨rfl, rfl⟩ := eq_of_guarded h
    exact .forwarding
  | _ => cases h

end Slot

/-! ## Rows -/

/-- what may follow the keywords -/
def BlockTail (kinds : List Kind) : Prop := kinds = [] ∨ kinds = [.blockarg]

/-- what may follow a keyword -/
inductive KeywordTail : List Kind → Prop where
  | sections {keywords splat block : List Kind} (hkeywords : ∀ kind ∈ keywords, kind = .kwarg ∨ kind = .kwoptarg)
      (hsplat : splat = [] ∨ splat = [.kwrestarg]) (hblock : BlockTail block) :
      KeywordTail (keywords ++ (splat ++ block))

/-- what may follow a splat or a trailing parameter -/
inductive TrailingTail : List Kind → Prop where
  | sections {trailing keywords block : List Kind} (htrailing : ∀ kind ∈ trailing, IsRequired kind)
      (hkeywords : KeywordSection keywords) (hblock : BlockTail block) : TrailingTail (trailing ++ (keywords ++ block))

/-- what may follow an optional parameter -/
inductive OptionalTail : List Kind → Prop where
  | sections {optional splat tail : List Kind} (hoptional : ∀ kind ∈ optional, kind = .optarg)
      (hsplat : splat = [] ∨ splat = [.restarg]) (htail : TrailingTail tail) :
      OptionalTail (optional ++ (splat ++ tail))

section

variable {kinds : List Kind}

theorem BlockTail.keyword (h : BlockTail kinds) : KeywordTail kinds := .sections (List.forall_mem_nil _) (Or.inl rfl) h

theorem KeywordTail.trailing (h : KeywordTail kinds) : TrailingTail kinds := by
  cases h with
  | sections hkeywords hsplat hblock =>
    rw [← List.append_assoc]
    exact .sections (List.forall_mem_nil _) (.accepted hkeywords hsplat) hblock

theorem TrailingTail.optional (h : TrailingTail kinds) : OptionalTail kinds :=
  .sections (List.forall_mem_nil _) (Or.inl rfl) h

theorem OptionalTail.inOrder (h : OptionalTail kinds) {leading : List Kind}
    (hleading : ∀ kind ∈ leading, IsRequired kind) {enclosing : Enclosing} : InOrder enclosing (leading ++ kinds) := by
  cases h with
  | sections hoptional hsplat htail =>
    cases htail with
    | sections htrailing hkeywords hblock => exact .sections hleading hoptional hsplat htrailing hkeywords hblock

end

namespace Slot

variable {kinds : List Kind}

/-- what may follow where the signature has come to the slot -/
def Tail : Slot → List Kind → Prop
  | leading => InOrder .other
  | optional => OptionalTail
  | rest | trailing => TrailingTail
  | keywords => KeywordTail
  | keywordRest => BlockTail
  | block | forward => fun kinds => kinds = []

theorem tail_of_optional (h : OptionalTail kinds) {slot : Slot} (hslot : slot.rank ≤ 1) : slot.Tail kinds := by
  cases slot with
  | leading => exact h.inOrder (List.forall_mem_nil _)
  | optional => exact h
  | _ => exact absurd hslot (by decide)

theorem tail_of_trailing (h : TrailingTail kinds) {slot : Slot} (hslot : slot.rank ≤ 3) : slot.Tail kinds := by
  cases slot with
  | leading | optional => exact tail_of_optional h.optional (by decide)
  | rest | trailing => exact h
  | _ => exact absurd hslot (by decide)

theorem tail_of_keyword (h : KeywordTail kinds) {slot : Slot} (hslot : slot.rank ≤ 4) : slot.Tail kinds := by
  cases slot with
  | keywords => exact h
  | leading | optional | rest | trailing => exact tail_of_trailing h.trailing (by decide)
  | _ => exact absurd hslot (by decide)

theorem tail_of_block (h : BlockTail kinds) {slot : Slot} (hslot : slot.rank ≤ 5) : slot.Tail kinds := by
  cases slot with
  | keywordRest => exact h
  | leading | optional | rest | trailing | keywords => exact tail_of_keyword h.keyword (by decide)
  | _ => exact absurd hslot (by decide)

theorem tail_nil (slot : Slot) : slot.Tail [] := by
  cases slot with
  | block | forward => rfl
  | _ => exact tail_of_block (Or.inl rfl) (by decide)

/-- One parameter in front of what may follow it. -/
theorem Step.tail {slot next : Slot} {kind : Kind} (h : Step slot kind next) (hlater : next.Tail kinds) :
    slot.Tail (kind :: kinds) := by
  cases h with
  | leading hkind =>
    cases hlater with
    | forwarding h hleading => exact .forwarding h (List.forall_mem_cons.2 ⟨hkind, hleading⟩)
    | sections hleading hoptional hsplat htrailing hkeywords hblock =>
      exact .sections (List.forall_mem_cons.2 ⟨hkind, hleading⟩) hoptional hsplat htrailing hkeywords hblock
  | trailing hkind _ h =>
    cases hlater with
    | sections htrailing hkeywords hblock =>
      exact tail_of_trailing (.sections (List.forall_mem_cons.2 ⟨hkind, htrailing⟩) hkeywords hblock) h
  | optional h =>
    cases hlater with
    | sections hoptional hsplat htail =>
      exact tail_of_optional (.sections (List.forall_mem_cons.2 ⟨rfl, hoptional⟩) hsplat htail) h
  | splat h => exact tail_of_optional (.sections (List.forall_mem_nil _) (Or.inr rfl) hlater) h
  | keyword hkind h =>
    cases hlater with
    | sections hkeywords hsplat hblock =>
      exact tail_of_keyword (.sections (List.forall_mem_cons.2 ⟨hkind, hkeywords⟩) hsplat hblock) h
  | keywordSplat h => exact tail_of_keyword (.sections (List.forall_mem_nil _) (Or.inr rfl) hlater) h
  | refusal h => exact tail_of_trailing (.sections (List.forall_mem_nil _) .refused hlater) h
  | block h =>
    obtain rfl : kinds = [] := hlater
    exact tail_of_block (Or.inr rfl) h
  | forwarding =>
    obtain rfl : kinds = [] := hlater
    exact .forwarding rfl (List.forall_mem_nil _)

/-- What a slot lets through may follow there. -/
theorem tail_of_run? {slot last : Slot} (h : slot.run? kinds = some last) : slot.Tail kinds := by
  induction kinds generalizing slot with
  | nil => exact tail_nil slot
  | cons kind later ih =>
    obtain ⟨next, hnext, hlater⟩ := Option.bind_eq_some_iff.1 h
    exact (step_of_next? hnext).tail (ih hlater)

end Slot

/-! ## Whole signatures -/

/-- The slots let only signatures in order through, where forwarding is not refused beforehand. -/
theorem inOrder_of_run? {enclosing : Enclosing} {kinds : List Kind} {last : Slot}
    (h : Slot.leading.run? kinds = some last) (hforward : enclosing = .other ∨ ∀ kind ∈ kinds, kind ≠ .forwardArg) :
    InOrder enclosing kinds := by
  have horder : InOrder .other kinds := Slot.tail_of_run? h
  cases horder with
  | forwarding _ hleading =>
    have hother : enclosing = .other := by
      rcases hforward with hother | hkinds
      · exact hother
      · exact absurd rfl (hkinds .forwardArg (List.mem_append_right _ (List.mem_singleton_self _)))
    exact .forwarding hother hleading
  | sections hleading hoptional hsplat htrailing hkeywords hblock =>
    exact .sections hleading hoptional hsplat htrailing hkeywords hblock

/-- **A row of parameters is let through exactly when it is a signature in order.** -/
theorem inOrder_iff_run? {enclosing : Enclosing} {kinds : List Kind} :
    InOrder enclosing kinds ↔
      Slot.leading.run? kinds ≠ none ∧ (enclosing = .other ∨ ∀ kind ∈ kinds, kind ≠ .forwardArg) := by
  constructor
  · intro h
    exact ⟨h.run?_ne_none, h.forwarding_allowed⟩
  · rintro ⟨hrun, hforward⟩
    obtain ⟨last, hlast⟩ := Option.ne_none_iff_exists'.1 hrun
    exact inOrder_of_run? hlast hforward

theorem KeywordSection.count_restarg {kinds : List Kind} (h : KeywordSection kinds) : kinds.count .restarg = 0 := by
  cases h with
  | @accepted keywords splat hkeywords hsplat =>
    have hkeywords : keywords.count .restarg = 0 := List.count_eq_zero.2 fun hmem => absurd (hkeywords _ hmem) (by decide)
    rw [List.count_append, hkeywords]
    rcases hsplat with rfl | rfl <;> decide
  | refused => decide

/-- a signature has at most one splat -/
theorem InOrder.count_restarg_le {enclosing : Enclosing} {kinds : List Kind} (h : InOrder enclosing kinds) :
    kinds.count .restarg ≤ 1 := by
  have hrequired {kinds : List Kind} (h : ∀ kind ∈ kinds, IsRequired kind) : kinds.count .restarg = 0 :=
    List.count_eq_zero.2 fun hmem => absurd (h _ hmem) (by decide)
  cases h with
  | forwarding _ hleading =>
    rw [List.count_append, hrequired hleading]
    decide
  | @sections _ optional splat _ keywords block hleading hoptional hsplat htrailing hkeywords hblock =>
    have hoptional : optional.count .restarg = 0 := List.count_eq_zero.2 fun hmem => absurd (hoptional _ hmem) (by decide)
    have hsplat : splat.count .restarg ≤ 1 := by rcases hsplat with rfl | rfl <;> decide
    have hkeywords : keywords.count .restarg = 0 := hkeywords.count_restarg
    have hblock : block.count .restarg = 0 := by rcases hblock with rfl | rfl <;> decide
    simp only [List.count_append, hrequired hleading, hrequired htrailing, hoptional, hkeywords, hblock]
    omega

end RubySignature.Signature
