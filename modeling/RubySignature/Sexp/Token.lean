/-
The tokens of s-expression notation.

`skip` passes over blanks and comments, and `Token.next` takes one token off the front of what is left. An opening
parenthesis and the name after it are one token, since nothing else may follow the parenthesis. Where no token starts, the
`Fault` says what could have stood there.
-/
import RubySignature.Double.Literal
import RubySignature.Sexp.Quoted

namespace RubySignature.Sexp

/-! ## Faults -/

/-- what the notation allows at a place -/
inductive Expected where
  | node
  | kindName
  | item
  | symbolName
  | endOfText
  deriving DecidableEq, Repr

def Expected.message : Expected → String
  | node => "expected node"
  | kindName => "expected node_kind"
  | item => "expected node, nil, integer, float, symbol, or string"
  | symbolName => "expected bare_symbol or quoted_symbol"
  | endOfText => "expected EOI"

/-- a place where the text stops making sense: what was expected, and the text from there on -/
structure Fault where
  expected : Expected
  rest : List Char
  deriving DecidableEq, Repr

/-! ## Layout -/

def isSpace (c : Char) : Bool := c == ' ' || c == '\t' || c == '\r' || c == '\n'

/-- Whether the character ends a comment. -/
def isLineEnd (c : Char) : Bool := c == '\n' || c == '\r'

mutual

/-- The text after its leading blanks and comments. -/
def skip : List Char → List Char
  | [] => []
  | c :: rest => if isSpace c then skip rest else if c == '#' then skipComment rest else c :: rest

/-- The text after the comment it stands in, and the blanks and comments after that. -/
def skipComment : List Char → List Char
  | [] => []
  | c :: rest => if isLineEnd c then skip rest else skipComment rest

end

/-! ## Tokens -/

/-- a value that stands for itself -/
inductive Leaf where
  | symbol (name : String)
  /-- an integer as it is spelt -/
  | integer (spelling : String)
  | float (value : Double)
  | str (text : String)
  | nil
  deriving DecidableEq, Repr

inductive Token where
  /-- an opening parenthesis with the name after it -/
  | opening (name : String)
  | closing
  | leaf (value : Leaf)
  deriving DecidableEq, Repr

def isKindStart (c : Char) : Bool := c.isAlpha || c == '_'

def isKindChar (c : Char) : Bool := c.isAlphanum || c == '_'

def isBareChar (c : Char) : Bool := !(isSpace c || c == '(' || c == ')' || c == '"' || c == '#')

def scanKind? : List Char → Option (String × List Char)
  | [] => none
  | c :: rest =>
    if isKindStart c then some (String.ofList (c :: rest.takeWhile isKindChar), rest.dropWhile isKindChar) else none

/-- Takes the name of a symbol off the front, in quotes or bare. -/
def scanSymbol? : List Char → Option (String × List Char)
  | '"' :: rest => (Quoted.scan? rest).map fun (name, rest) => (String.ofList name, rest)
  | s => if (s.takeWhile isBareChar).isEmpty then none
    else some (String.ofList (s.takeWhile isBareChar), s.dropWhile isBareChar)

def scanInteger? (s : List Char) : Option (String × List Char) :=
  let (negative, digits) := Numeral.scanSign s
  if (digitRun digits).isEmpty then none
  else some (String.ofList ((if negative then ['-'] else []) ++ digitRun digits), afterDigits digits)

/-- Takes a string, a nil or a number off the front; a number is a float wherever it can be one. -/
def scanLeaf? : List Char → Option (Leaf × List Char)
  | '"' :: rest => (Quoted.scan? rest).map fun (text, rest) => (.str (String.ofList text), rest)
  | 'n' :: 'i' :: 'l' :: rest => if rest.head?.any isKindChar then none else some (.nil, rest)
  | s =>
    match Numeral.scan? s with
    | some (numeral, rest) => some (.float numeral.toDouble, rest)
    | none => (scanInteger? s).map fun (spelling, rest) => (.integer spelling, rest)

/-- Takes a token off the front of a text without leading layout. -/
def Token.next : List Char → Except Fault (Token × List Char)
  | '(' :: rest =>
    match scanKind? (skip rest) with
    | some (name, rest) => .ok (.opening name, rest)
    | none => .error ⟨.kindName, skip rest⟩
  | ')' :: rest => .ok (.closing, rest)
  | ':' :: rest =>
    match scanSymbol? rest with
    | some (name, rest) => .ok (.leaf (.symbol name), rest)
    | none => .error ⟨.symbolName, rest⟩
  | s =>
    match scanLeaf? s with
    | some (value, rest) => .ok (.leaf value, rest)
    | none => .error ⟨.item, s⟩

/-! ## Progress of the scanners -/

mutual

theorem length_skip_le (s : List Char) : (skip s).length ≤ s.length := by
  match s with
  | [] => exact Nat.le_refl _
  | c :: rest =>
    have hrest := length_skip_le rest
    have hcomment := length_skipComment_le rest
    rw [skip, List.length_cons]
    split
    · omega
    · split
      · omega
      · exact Nat.le_refl _

theorem length_skipComment_le (s : List Char) : (skipComment s).length ≤ s.length := by
  match s with
  | [] => exact Nat.le_refl _
  | c :: rest =>
    have hrest := length_skip_le rest
    have hcomment := length_skipComment_le rest
    rw [skipComment, List.length_cons]
    split <;> omega

end

theorem length_of_scanKind? {s rest : List Char} {name : String} (h : scanKind? s = some (name, rest)) :
    rest.length < s.length := by
  cases s with
  | nil => cases h
  | cons c s =>
    rw [scanKind?] at h
    split at h
    · obtain ⟨-, rfl⟩ := Prod.mk.inj (Option.some.inj h)
      exact Nat.lt_succ_of_le (List.dropWhile_suffix isKindChar).length_le
    · cases h

theorem length_of_scanSymbol? {s rest : List Char} {name : String} (h : scanSymbol? s = some (name, rest)) :
    rest.length < s.length := by
  unfold scanSymbol? at h
  split at h
  · obtain ⟨text, hquoted⟩ := Quoted.exists_of_map_eq_some h fun _ => rfl
    exact Nat.lt_succ_of_lt (Quoted.length_of_scan? hquoted)
  · split at h
    · cases h
    · rename_i hbare
      obtain ⟨-, rfl⟩ := Prod.mk.inj (Option.some.inj h)
      exact length_dropWhile_lt hbare

theorem length_of_scanInteger? {s rest : List Char} {spelling : String} (h : scanInteger? s = some (spelling, rest)) :
    rest.length < s.length := by
  unfold scanInteger? at h
  dsimp only at h
  split at h
  · cases h
  · rename_i hdigits
    obtain ⟨-, rfl⟩ := Prod.mk.inj (Option.some.inj h)
    exact Nat.lt_of_lt_of_le (length_afterDigits_lt hdigits) (Numeral.length_scanSign_le s)

theorem length_of_scanLeaf? {s rest : List Char} {value : Leaf} (h : scanLeaf? s = some (value, rest)) :
    rest.length < s.length := by
  unfold scanLeaf? at h
  -- a text in quotes, the word for nil, or a number
  split at h
  · obtain ⟨text, hquoted⟩ := Quoted.exists_of_map_eq_some h fun _ => rfl
    exact Nat.lt_succ_of_lt (Quoted.length_of_scan? hquoted)
  · split at h
    · cases h
    · obtain ⟨-, rfl⟩ := Prod.mk.inj (Option.some.inj h)
      rw [List.length_cons, List.length_cons, List.length_cons]
      omega
  · split at h
    · rename_i numeral left hnumeral
      obtain ⟨-, rfl⟩ := Prod.mk.inj (Option.some.inj h)
      exact Numeral.length_of_scan? hnumeral
    · obtain ⟨spelling, hinteger⟩ := Quoted.exists_of_map_eq_some h fun _ => rfl
      exact length_of_scanInteger? hinteger

theorem Token.length_of_next {s rest : List Char} {token : Token} (h : Token.next s = .ok (token, rest)) :
    rest.length < s.length := by
  unfold Token.next at h
  -- by the first character: a parenthesis of either sort, a colon, or any other
  split at h
  · rename_i tail
    split at h
    · rename_i name left hname
      obtain ⟨-, rfl⟩ := Prod.mk.inj (Except.ok.inj h)
      have hleft : left.length < tail.length := Nat.lt_of_lt_of_le (length_of_scanKind? hname) (length_skip_le tail)
      exact Nat.lt_succ_of_lt hleft
    · cases h
  · obtain ⟨-, rfl⟩ := Prod.mk.inj (Except.ok.inj h)
    exact Nat.lt_succ_self _
  · split at h
    · rename_i name left hname
      obtain ⟨-, rfl⟩ := Prod.mk.inj (Except.ok.inj h)
      exact Nat.lt_succ_of_lt (length_of_scanSymbol? hname)
    · cases h
  · split at h
    · rename_i value left hleaf
      obtain ⟨-, rfl⟩ := Prod.mk.inj (Except.ok.inj h)
      exact length_of_scanLeaf? hleaf
    · cases h

end RubySignature.Sexp
