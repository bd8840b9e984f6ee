/-
Names and default values in a parameter list.

A default value is a string, a symbol, an integer, one of four words, or any other name, which is a call without a receiver:
no name has been introduced as a variable at that point.
-/
import RubySignature.Signature.Fault
import RubySignature.Tree.Node
import RubySignature.Unicode.Classes

namespace RubySignature.Signature

open Unicode

def skipBlank (s : List Char) : List Char := s.dropWhile isBlank

def scanName? (s : List Char) : Option (String × List Char) :=
  if (s.takeWhile isNameChar).isEmpty then none
  else some (String.ofList (s.takeWhile isNameChar), s.dropWhile isNameChar)

/-- Takes a name off the front, which must have one. -/
def readName (s : List Char) : Except Fault (String × List Char) :=
  match scanName? s with
  | some found => .ok found
  | none => .error (.expected .name s)

/-- the character that a backslash and this one stand for in a string -/
def unescape : Char → Char
  | 'n' => '\n'
  | 't' => '\t'
  | c => c

/-- Reads what follows the opening quote of a string, up to and with the closing one. -/
def readString : List Char → Except Wanted (List Char × List Char)
  | [] => .error .closingQuote
  | '"' :: rest => .ok ([], rest)
  | '\\' :: [] => .error .escaped
  | '\\' :: c :: rest => (readString rest).map fun (text, rest) => (unescape c :: text, rest)
  | c :: rest => (readString rest).map fun (text, rest) => (c :: text, rest)

def wordNode (word : String) : Node :=
  if word = "nil" then .leaf .nilLiteral
  else if word = "true" then .leaf .trueLiteral
  else if word = "false" then .leaf .falseLiteral
  else if word = "self" then .leaf .selfReference
  else ⟨.send, [.nil, .symbol word]⟩

def readDefault : List Char → Except Fault (Node × List Char)
  | '"' :: rest =>
    match readString rest with
    | .ok (text, rest) => .ok (⟨.str, [.str (String.ofList text)]⟩, rest)
    | .error wanted => .error (.expected wanted [])
  | ':' :: rest => (readName rest).map fun (name, rest) => (⟨.sym, [.symbol name]⟩, rest)
  | c :: rest =>
    if c == '-' || c.isDigit then
      match wordOfDecimal (c :: digitRun rest) with
      | .ok value => .ok (⟨.int, [.int value]⟩, afterDigits rest)
      | .error fault => .error (.integer (c :: digitRun rest) fault)
    else (readName (c :: rest)).map fun (word, rest) => (wordNode word, rest)
  | [] => .error (.expected .name [])

/-! ## Progress -/

theorem length_skipBlank_le (s : List Char) : (skipBlank s).length ≤ s.length :=
  (List.dropWhile_suffix _).length_le

theorem length_of_scanName? {s rest : List Char} {name : String} (h : scanName? s = some (name, rest)) :
    rest.length < s.length := by
  unfold scanName? at h
  split at h
  · cases h
  · rename_i hname
    obtain ⟨-, rfl⟩ := Prod.mk.inj (Option.some.inj h)
    exact length_dropWhile_lt hname

theorem length_of_readName {s rest : List Char} {name : String} (h : readName s = .ok (name, rest)) :
    rest.length < s.length := by
  unfold readName at h
  split at h
  · rename_i found hscan
    obtain rfl := Except.ok.inj h
    exact length_of_scanName? hscan
  · cases h

/-- What is done with a value that is read leaves the text after it as it is. -/
theorem exists_of_map_eq_ok {ε α β : Type} {outcome : Except ε (α × List Char)} {f : α × List Char → β × List Char}
    {value : β} {rest : List Char} (h : outcome.map f = .ok (value, rest)) (hrest : ∀ found, (f found).2 = found.2) :
    ∃ first, outcome = .ok (first, rest) := by
  cases outcome with
  | error fault => cases h
  | ok found =>
    obtain ⟨first, left⟩ := found
    obtain rfl : left = rest := (hrest (first, left)).symm.trans (congrArg Prod.snd (Except.ok.inj h))
    exact ⟨first, rfl⟩

theorem length_of_readString {s rest text : List Char} (h : readString s = .ok (text, rest)) :
    rest.length < s.length := by
  fun_induction readString s generalizing text with
  | case1 => cases h
  | case2 s =>
    obtain ⟨-, rfl⟩ := Prod.mk.inj (Except.ok.inj h)
    exact Nat.lt_succ_self _
  | case3 => cases h
  | case4 c s ih =>
    obtain ⟨later, hlater⟩ := exists_of_map_eq_ok h fun _ => rfl
    have hshorter := ih hlater
    rw [List.length_cons, List.length_cons]
    omega
  | case5 c s _ _ _ ih =>
    obtain ⟨later, hlater⟩ := exists_of_map_eq_ok h fun _ => rfl
    exact Nat.lt_succ_of_lt (ih hlater)

theorem length_of_readDefault {s rest : List Char} {node : Node} (h : readDefault s = .ok (node, rest)) :
    rest.length < s.length := by
  unfold readDefault at h
  split at h
  · split at h
    · rename_i text left hstring
      obtain ⟨-, rfl⟩ := Prod.mk.inj (Except.ok.inj h)
      exact Nat.lt_succ_of_lt (length_of_readString hstring)
    · cases h
  · obtain ⟨name, hname⟩ := exists_of_map_eq_ok h fun _ => rfl
    exact Nat.lt_succ_of_lt (length_of_readName hname)
  · split at h
    · split at h
      · obtain ⟨-, rfl⟩ := Prod.mk.inj (Except.ok.inj h)
        exact Nat.lt_succ_of_le (length_afterDigits_le _)
      · cases h
    · obtain ⟨word, hword⟩ := exists_of_map_eq_ok h fun _ => rfl
      exact length_of_readName hword
  · cases h

end RubySignature.Signature
