/-
Reading the text of a parameter list, as it stands between bars or parentheses.

The parameters come in signature order, then, after a semicolon, the block-locals. Between the bars of a block a single
parameter without a comma after it is the block's sole parameter; with the comma it is a plain one. Such a last comma is
allowed nowhere else, and only after leading parameters. Forwarding belongs to method definitions.
-/
import RubySignature.Param.View
import RubySignature.Signature.Item

namespace RubySignature.Signature

/-! ## Ordinary parameters -/

/-- the ordinary parameters of a text, and where they leave off -/
structure Normals where
  items : List Item
  /-- how far the signature has come -/
  slot : Slot
  /-- a comma follows the last parameter -/
  comma : Bool
  rest : List Char

def Normals.cons (item : Item) (normals : Normals) : Normals := { normals with items := item :: normals.items }

def atNormalsEnd : List Char → Bool
  | [] => true
  | c :: _ => c == ';'

theorem length_of_readItem {patterns : List OpenPattern} {s rest : List Char} {item : Item}
    (h : readItem patterns s = .ok (item, rest)) : rest.length < s.length := by
  fun_induction readItem patterns s with
  | case1 patterns s ih => exact Nat.lt_succ_of_lt (Nat.lt_of_lt_of_le (ih h) (length_skipBlank_le s))
  | case2 => cases h
  | case3 => cases h
  | case4 patterns s _ first left hflat last later hdeliver =>
    obtain ⟨-, rfl⟩ := Prod.mk.inj (Except.ok.inj h)
    exact Nat.lt_of_le_of_lt (length_of_deliver hdeliver) (length_of_readFlat hflat)
  | case5 patterns s _ first left hflat inner tail hdeliver ih =>
    have htail : tail.length ≤ left.length := length_of_deliver hdeliver
    have hleft := length_of_readFlat hflat
    exact Nat.lt_trans (ih h) (Nat.lt_of_le_of_lt htail hleft)

/-- Reads parameters up to the end of the text or a semicolon, from where one begins. -/
def readNormals (enclosing : Enclosing) (slot : Slot) (s : List Char) : Except Fault Normals :=
  match _hi : readItem [] s with
  | .error fault => .error fault
  | .ok (item, rest) =>
    if item.kind = .forwardArg ∧ enclosing ≠ .other then .error (.expected .otherThanForwarding rest)
    else
      match slot.next? item.kind with
      | none => .error (.expected .signatureOrder rest)
      | some slot =>
        match _hs : skipBlank rest with
        | ',' :: later =>
          if atNormalsEnd (skipBlank later) then .ok ⟨[item], slot, true, skipBlank later⟩
          else (readNormals enclosing slot (skipBlank later)).map (.cons item)
        | later => .ok ⟨[item], slot, false, later⟩
termination_by s.length
decreasing_by
  have h₁ := length_of_readItem _hi
  have h₂ := length_skipBlank_le rest
  have h₃ := length_skipBlank_le later
  rw [_hs, List.length_cons] at h₂
  omega

/-! ## Block-locals -/

def readShadows (s : List Char) : Except Fault (List String × List Char) :=
  match _hn : readName (skipBlank s) with
  | .error fault => .error fault
  | .ok (name, rest) =>
    match _hs : skipBlank rest with
    | ',' :: later => (readShadows later).map fun (names, rest) => (name :: names, rest)
    | later => .ok ([name], later)
termination_by s.length
decreasing_by
  have h₁ := length_of_readName _hn
  have h₂ := length_skipBlank_le rest
  have h₃ := length_skipBlank_le s
  rw [_hs, List.length_cons] at h₂
  omega

/-! ## Whole lists -/

/-- The nodes of the ordinary parameters: alone in a block and without a comma, a parameter is the sole one. -/
def Normals.nodes (normals : Normals) (enclosing : Enclosing) : List Node :=
  match normals.items with
  | [item] => if enclosing = .block ∧ normals.comma = false then [item.toSole] else [item.toNode]
  | items => items.map Item.toNode

def shadowNode (name : String) : Node := ⟨.shadowarg, [.symbol name]⟩

def readList (text : List Char) (enclosing : Enclosing) : Except Fault Node := do
  let start := skipBlank text
  let normals ← if atNormalsEnd start then .ok ⟨[], .leading, false, start⟩ else readNormals enclosing .leading start
  if normals.comma = true ∧ (enclosing ≠ .block ∨ normals.slot ≠ .leading) then
    throw (.expected .afterComma normals.rest)
  let (shadows, rest) ← match normals.rest with
    | ';' :: rest => readShadows rest
    | rest => .ok ([], rest)
  let rest := skipBlank rest
  unless rest.isEmpty do
    throw (.expected .endOfText rest)
  return .ofNodes .args (normals.nodes enclosing ++ shadows.map shadowNode)

/-- Reads the parameter list that a text spells inside the given construct. -/
def read (text : String) (enclosing : Enclosing) : Except ReadError Node :=
  (readList text.toList enclosing).mapError (·.locate text.toList.length)

end RubySignature.Signature
