/-
Parameter lists in canonical form.

A canonical list has its parameters in signature order, its block-locals last, names that can be read, and default values
that can be read back. It is what reading a list gives, apart from names and default values that only reading allows. The
order is said section by section (`InOrder`) and is what the slots of a signature let through (`InOrder.run?_ne_none`).
-/
import RubySignature.Proofs.Signature.Layout
import RubySignature.Proofs.Signature.Order
import RubySignature.Signature.Reader
import RubySignature.Tree.Node

namespace RubySignature.Signature

/-! ## Parameters -/

/-- a default value that reads back: an integer, a string without carriage returns and escapes, a symbol that is an
identifier, one of four words, or a call of any other name -/
inductive IsDefault : Node → Prop where
  | int (value : Int64) : IsDefault ⟨.int, [.int value]⟩
  | str {text : String} (h : ∀ c ∈ text.toList, c ≠ '\r' ∧ c ≠ '\x1b') : IsDefault ⟨.str, [.str text]⟩
  | sym {name : String} (h : Symbol.isIdentifier name.toList = true) : IsDefault ⟨.sym, [.symbol name]⟩
  | word {kind : Kind} (h : kind ∈ [Kind.nilLiteral, .trueLiteral, .falseLiteral, .selfReference]) :
      IsDefault (.leaf kind)
  | call {name : String} (h : IsName name) (hdigit : Stops Char.isDigit name.toList)
      (hword : name ∉ ["nil", "true", "false", "self"]) : IsDefault ⟨.send, [.nil, .symbol name]⟩

/-- an ordinary parameter with names and a default value that read back -/
inductive IsParam : Node → Prop where
  | arg {name : String} (h : IsName name) : IsParam ⟨.arg, [.symbol name]⟩
  | optarg {name : String} {default : Node} (h : IsName name) (hdefault : IsDefault default) :
      IsParam ⟨.optarg, [.symbol name, .ofNode default]⟩
  | restarg {name? : Option String} (h : ∀ name ∈ name?, IsName name) : IsParam (starNode .restarg name?)
  | kwarg {name : String} (h : IsName name) : IsParam ⟨.kwarg, [.symbol name]⟩
  | kwoptarg {name : String} {default : Node} (h : IsName name) (hdefault : IsDefault default) :
      IsParam ⟨.kwoptarg, [.symbol name, .ofNode default]⟩
  | kwrestarg {name? : Option String} (h : ∀ name ∈ name?, IsName name ∧ name ≠ "nil") :
      IsParam (starNode .kwrestarg name?)
  | kwnilarg : IsParam (.leaf .kwnilarg)
  | blockarg {name? : Option String} (h : ∀ name ∈ name?, IsName name) : IsParam (starNode .blockarg name?)
  | forwardArg : IsParam (.leaf .forwardArg)
  | mlhs {nodes : List Node} (hnodes : ∀ node ∈ nodes, IsParam node) (hpattern : IsPattern (nodes.map Node.kind)) :
      IsParam (.ofNodes .mlhs nodes)

theorem kind_toNode (item : Item) : item.toNode.kind = item.kind := by
  cases item <;> rfl

/-! ## Order -/

def IsRequired (kind : Kind) : Prop := kind = .arg ∨ kind = .mlhs

instance (kind : Kind) : Decidable (IsRequired kind) := inferInstanceAs (Decidable (_ ∨ _))

/-- the keywords of a signature, or the refusal of all keywords -/
inductive KeywordSection : List Kind → Prop where
  | accepted {keywords splat : List Kind} (hkeywords : ∀ kind ∈ keywords, kind = .kwarg ∨ kind = .kwoptarg)
      (hsplat : splat = [] ∨ splat = [.kwrestarg]) : KeywordSection (keywords ++ splat)
  | refused : KeywordSection [.kwnilarg]

/-- the sections of a signature in their order, inside the given construct -/
inductive InOrder (enclosing : Enclosing) : List Kind → Prop where
  | forwarding {leading : List Kind} (h : enclosing = .other) (hleading : ∀ kind ∈ leading, IsRequired kind) :
      InOrder enclosing (leading ++ [.forwardArg])
  | sections {leading optional splat trailing keywords block : List Kind} (hleading : ∀ kind ∈ leading, IsRequired kind)
      (hoptional : ∀ kind ∈ optional, kind = .optarg) (hsplat : splat = [] ∨ splat = [.restarg])
      (htrailing : ∀ kind ∈ trailing, IsRequired kind) (hkeywords : KeywordSection keywords)
      (hblock : block = [] ∨ block = [.blockarg]) :
      InOrder enclosing (leading ++ (optional ++ (splat ++ (trailing ++ (keywords ++ block)))))

theorem KeywordSection.passes {kinds : List Kind} (h : KeywordSection kinds) {slot : Slot} (hslot : slot.rank ≤ 3) :
    slot.Passes kinds 5 := by
  cases h with
  | accepted hkeywords hsplat =>
    exact (Slot.passes_keywords hkeywords (Nat.le_succ_of_le hslot)).append fun _ => Slot.passes_keywordSplat hsplat
  | refused => exact Slot.passes_noKeywords hslot

/-- **The slots let every signature in order through.** -/
theorem InOrder.run?_ne_none {enclosing : Enclosing} {kinds : List Kind} (h : InOrder enclosing kinds) :
    Slot.leading.run? kinds ≠ none := by
  have hleading {leading : List Kind} (hkinds : ∀ kind ∈ leading, IsRequired kind) : Slot.leading.Passes leading 0 :=
    Slot.passes_required hkinds (Or.inl rfl) (Nat.le_refl _)
  cases h with
  | @forwarding leading h hkinds =>
    have hforward (slot : Slot) (hslot : slot.rank ≤ 0) : slot.Passes [.forwardArg] 7 := by
      cases slot <;> first | exact ⟨_, rfl, by decide⟩ | exact absurd hslot (by decide)
    obtain ⟨last, hlast, _⟩ := (hleading hkinds).append hforward
    exact Option.ne_none_iff_exists'.2 ⟨last, hlast⟩
  | sections hkinds hoptional hsplat htrailing hkeywords hblock =>
    obtain ⟨last, hlast, _⟩ :=
      (hleading hkinds).append fun _ hslot =>
        (Slot.passes_optional hoptional (Nat.le_succ_of_le hslot)).append fun _ hslot =>
          (Slot.passes_splat hsplat hslot).append fun _ hslot =>
            (Slot.passes_required htrailing (Or.inr rfl) (Nat.le_succ_of_le hslot)).append fun _ hslot =>
              (hkeywords.passes hslot).append fun _ hslot => Slot.passes_block hblock hslot
    exact Option.ne_none_iff_exists'.2 ⟨last, hlast⟩

/-- forwarding stands only where it is allowed -/
theorem InOrder.forwarding_allowed {enclosing : Enclosing} {kinds : List Kind} (h : InOrder enclosing kinds) :
    enclosing = .other ∨ ∀ kind ∈ kinds, kind ≠ .forwardArg := by
  cases h with
  | forwarding h _ => exact Or.inl h
  | sections hleading hoptional hsplat htrailing hkeywords hblock =>
    right
    intro kind hkind
    simp only [List.mem_append] at hkind
    rintro rfl
    rcases hkind with h | h | h | h | h | h
    · rcases hleading _ h with h | h <;> cases h
    · cases hoptional _ h
    · rcases hsplat with rfl | rfl <;> simp at h
    · rcases htrailing _ h with h | h <;> cases h
    · cases hkeywords with
      | accepted hkeywords hsplat =>
        rcases List.mem_append.1 h with h | h
        · rcases hkeywords _ h with h | h <;> cases h
        · rcases hsplat with rfl | rfl <;> simp at h
      | refused => simp at h
    · rcases hblock with rfl | rfl <;> simp at h

/-- A parameter list in canonical form inside the given construct. A block with a single pattern has it as its sole
parameter. -/
inductive Canonical (enclosing : Enclosing) : Node → Prop where
  | list {normals : List Node} {shadows : List String} (hnormals : ∀ node ∈ normals, IsParam node)
      (horder : InOrder enclosing (normals.map Node.kind))
      (hlone : enclosing = .block → normals.map Node.kind ≠ [.mlhs]) (hshadows : ∀ name ∈ shadows, IsName name) :
      Canonical enclosing (.ofNodes .args (normals ++ shadows.map shadowNode))
  | sole {parts : List Node} {shadows : List String} (hblock : enclosing = .block)
      (hparts : ∀ node ∈ parts, IsParam node) (hpattern : IsPattern (parts.map Node.kind))
      (hshadows : ∀ name ∈ shadows, IsName name) :
      Canonical enclosing (.ofNodes .args (.ofNodes .procarg0 parts :: shadows.map shadowNode))

end RubySignature.Signature
