/-
How parameters are written.

`ItemText` says which texts spell a parameter, without saying how they are read: white space may stand where the notation
allows it, an integer may have any decimal spelling, a string any escapes. Parameters and names stand in lists with commas
between them (`joined`), and a parameter in parentheses is such a list again.
-/
import RubySignature.Proofs.Signature.Layout
import RubySignature.Proofs.Signature.Order
import RubySignature.Signature.Reader

namespace RubySignature.Signature

open Unicode

/-! ## Default values -/

/-- a text and what may stand for it between double quotes -/
inductive StringText : List Char → List Char → Prop where
  | done : StringText [] []
  | plain {c : Char} {text written : List Char} (hquote : c ≠ '"') (hback : c ≠ '\\') (later : StringText text written) :
      StringText (c :: text) (c :: written)
  | escaped (c : Char) {text written : List Char} (later : StringText text written) :
      StringText (unescape c :: text) ('\\' :: c :: written)

/-- a default value and a text that spells it -/
inductive DefaultText : Node → List Char → Prop where
  | int {value : Int64} (negative : Bool) {digits : List Char} (hne : digits ≠ [])
      (hdigits : ∀ c ∈ digits, c.isDigit = true)
      (hvalue : wordOfDecimal ((if negative then ['-'] else []) ++ digits) = .ok value) :
      DefaultText ⟨.int, [.int value]⟩ ((if negative then ['-'] else []) ++ digits)
  | str {text : String} {written : List Char} (h : StringText text.toList written) :
      DefaultText ⟨.str, [.str text]⟩ ('"' :: written ++ ['"'])
  | sym {name : String} (h : IsName name) : DefaultText ⟨.sym, [.symbol name]⟩ (':' :: name.toList)
  /-- one of the four words, or a call -/
  | word {name : String} (h : IsName name) (hdigit : Stops Char.isDigit name.toList) :
      DefaultText (wordNode name) name.toList

/-! ## Lists -/

/-- a part of a list, with the white space around it -/
structure Spelt (α : Type) where
  value : α
  before : List Char
  text : List Char
  after : List Char

namespace Spelt

variable {α : Type}

def chars (part : Spelt α) : List Char := part.before ++ part.text ++ part.after

def Spaced (part : Spelt α) : Prop := Blanks part.before ∧ Blanks part.after

end Spelt

def joined {α : Type} : List (Spelt α) → List Char
  | [] => []
  | [part] => part.chars
  | part :: later => part.chars ++ ',' :: joined later

theorem joined_cons {α : Type} (part : Spelt α) {later : List (Spelt α)} (hne : later ≠ []) :
    joined (part :: later) = part.chars ++ ',' :: joined later := by
  cases later with
  | nil => exact absurd rfl hne
  | cons => rfl

def values {α : Type} (parts : List (Spelt α)) : List α := parts.map Spelt.value

/-! ## Lists with single blanks -/

section

variable {α : Type} {first : List Char} {pieces : List (α × String)}

/-- parts with a blank in front of each but the first, which has the given text there -/
def spaced (first : List Char) : List (α × String) → List (Spelt α)
  | [] => []
  | piece :: later => ⟨piece.1, first, piece.2.toList, []⟩ :: spaced [' '] later

theorem values_spaced : values (spaced first pieces) = pieces.map Prod.fst := by
  induction pieces generalizing first with
  | nil => rfl
  | cons piece later ih => exact congrArg (piece.1 :: ·) ih

theorem forall_mem_spaced {p : Spelt α → Prop}
    (h : ∀ piece ∈ pieces, ∀ before, before = first ∨ before = [' '] → p ⟨piece.1, before, piece.2.toList, []⟩) :
    ∀ part ∈ spaced first pieces, p part := by
  induction pieces generalizing first with
  | nil =>
    intro part hpart
    cases hpart
  | cons piece later ih =>
    rw [List.forall_mem_cons] at h
    rw [spaced, List.forall_mem_cons]
    refine ⟨h.1 first (Or.inl rfl), ih fun piece hpiece before hbefore => h.2 piece hpiece before (Or.inr ?_)⟩
    rcases hbefore with rfl | rfl <;> rfl

theorem joined_spaced (hne : pieces ≠ []) :
    joined (spaced first pieces) = first ++ (", ".intercalate (pieces.map Prod.snd)).toList := by
  induction pieces generalizing first with
  | nil => exact absurd rfl hne
  | cons piece later ih =>
    cases later with
    | nil => simp [spaced, joined, Spelt.chars]
    | cons next later =>
      have hlater : spaced [' '] (next :: later) ≠ [] := List.cons_ne_nil _ _
      rw [spaced, joined_cons _ hlater, ih (List.cons_ne_nil _ _)]
      simp [Spelt.chars, String.intercalate_cons_cons]

end

/-! ## Parameters -/

/-- a parameter without parentheses and a text that spells it -/
inductive FlatText : Item → List Char → Prop where
  | bare {name : String} (h : IsName name) : FlatText (.bare name) name.toList
  | optional {name : String} {default : Node} {before after text : List Char} (h : IsName name)
      (hbefore : Blanks before) (hafter : Blanks after) (hdefault : DefaultText default text) :
      FlatText (.node ⟨.optarg, [.symbol name, .ofNode default]⟩) (name.toList ++ (before ++ '=' :: (after ++ text)))
  | keyword {name : String} (h : IsName name) : FlatText (.node ⟨.kwarg, [.symbol name]⟩) (name.toList ++ [':'])
  | keywordDefault {name : String} {default : Node} {after text : List Char} (h : IsName name) (hafter : Blanks after)
      (hdefault : DefaultText default text) :
      FlatText (.node ⟨.kwoptarg, [.symbol name, .ofNode default]⟩) (name.toList ++ ':' :: (after ++ text))
  | splat {name? : Option String} (h : ∀ name ∈ name?, IsName name) :
      FlatText (.node (starNode .restarg name?)) ('*' :: (name?.getD "").toList)
  | keywordSplat {name? : Option String} (h : ∀ name ∈ name?, IsName name ∧ name ≠ "nil") :
      FlatText (.node (starNode .kwrestarg name?)) ('*' :: '*' :: (name?.getD "").toList)
  | noKeywords : FlatText (.node (.leaf .kwnilarg)) ['*', '*', 'n', 'i', 'l']
  | block {name? : Option String} (h : ∀ name ∈ name?, IsName name) :
      FlatText (.node (starNode .blockarg name?)) ('&' :: (name?.getD "").toList)
  | forward : FlatText (.node (.leaf .forwardArg)) ['.', '.', '.']

/-- a parameter and a text that spells it -/
inductive ItemText : Item → List Char → Prop where
  | flat {item : Item} {text : List Char} (h : FlatText item text) : ItemText item text
  /-- a pattern, which is a list in parentheses -/
  | group {parts : List (Spelt Item)} (hspaced : ∀ part ∈ parts, part.Spaced)
      (htext : ∀ part ∈ parts, ItemText part.value part.text) (hpattern : IsPattern ((values parts).map Item.kind)) :
      ItemText (.group ((values parts).map Item.toNode)) ('(' :: joined parts ++ [')'])

end RubySignature.Signature
