/-
Text in double quotes.

Inside quotes a backslash takes the next character with it: `n`, `t` and `r` stand for a line feed, a tab and a carriage
return, any other character for itself. Writing escapes the quote, the backslash and those three controls, so that a
quoted text stays on one line.
-/
namespace RubySignature.Quoted

/-- the character that a backslash and this one stand for -/
def unescape : Char → Char
  | 'n' => '\n'
  | 't' => '\t'
  | 'r' => '\r'
  | c => c

def escape : Char → List Char
  | '"' => ['\\', '"']
  | '\\' => ['\\', '\\']
  | '\n' => ['\\', 'n']
  | '\t' => ['\\', 't']
  | '\r' => ['\\', 'r']
  | c => [c]

def chars (text : List Char) : List Char := '"' :: text.flatMap escape ++ ['"']

/-- Reads what follows an opening quote, up to and with the closing one. -/
def scan? : List Char → Option (List Char × List Char)
  | [] => none
  | '"' :: rest => some ([], rest)
  | '\\' :: c :: rest => (scan? rest).map fun (text, rest) => (unescape c :: text, rest)
  | c :: rest => (scan? rest).map fun (text, rest) => (c :: text, rest)

/-- What is done with a scanned value leaves the text after it as it is. -/
theorem exists_of_map_eq_some {α β : Type} {scanned : Option (α × List Char)} {f : α × List Char → β × List Char}
    {value : β} {rest : List Char} (h : scanned.map f = some (value, rest)) (hrest : ∀ found, (f found).2 = found.2) :
    ∃ first, scanned = some (first, rest) := by
  obtain ⟨⟨first, left⟩, hscanned, hvalue⟩ := Option.map_eq_some_iff.1 h
  obtain rfl : left = rest := (hrest (first, left)).symm.trans (congrArg Prod.snd hvalue)
  exact ⟨first, hscanned⟩

theorem length_of_scan? {s text rest : List Char} (h : scan? s = some (text, rest)) : rest.length < s.length := by
  fun_induction scan? s generalizing text with
  | case1 => cases h
  | case2 s =>
    obtain ⟨-, rfl⟩ := Prod.mk.inj (Option.some.inj h)
    exact Nat.lt_succ_self _
  | case3 c s ih =>
    obtain ⟨later, hlater⟩ := exists_of_map_eq_some h fun _ => rfl
    have hshorter := ih hlater
    rw [List.length_cons, List.length_cons]
    omega
  | case4 c s _ _ ih =>
    obtain ⟨later, hlater⟩ := exists_of_map_eq_some h fun _ => rfl
    exact Nat.lt_succ_of_lt (ih hlater)

end RubySignature.Quoted
