/-
Decimal spelling of whole numbers, and the way back into 64-bit integers.

Texts are lists of characters. `natChars` and `intChars` write a number without leading zeros; `wordOfDecimal` reads
an optional minus sign and a run of digits and says which way a number misses the 64-bit range.
-/
namespace RubySignature

/-! ## Runs of digits -/

/-- A run that is not empty leaves less of the text behind it. -/
theorem length_dropWhile_lt {p : Char → Bool} {s : List Char} (h : ¬ (s.takeWhile p).isEmpty) :
    (s.dropWhile p).length < s.length := by
  have hsplit : (s.takeWhile p).length + (s.dropWhile p).length = s.length := by
    rw [← List.length_append, List.takeWhile_append_dropWhile]
  have hrun : 0 < (s.takeWhile p).length := List.length_pos_iff.2 (mt List.isEmpty_iff.2 h)
  omega

/-- the longest run of ASCII digits at the front -/
def digitRun (s : List Char) : List Char := s.takeWhile Char.isDigit

def afterDigits (s : List Char) : List Char := s.dropWhile Char.isDigit

theorem digitRun_append_afterDigits (s : List Char) : digitRun s ++ afterDigits s = s :=
  List.takeWhile_append_dropWhile

theorem length_afterDigits_le (s : List Char) : (afterDigits s).length ≤ s.length :=
  (List.dropWhile_suffix _).length_le

theorem length_afterDigits_lt {s : List Char} (h : ¬ (digitRun s).isEmpty) : (afterDigits s).length < s.length :=
  length_dropWhile_lt h

/-- the number a run of digits denotes in base ten -/
def digitsValue (digits : List Char) : Nat := Nat.ofDigitChars 10 digits 0

/-! ## Writing -/

/-- a natural number in base ten, without leading zeros -/
def natChars (n : Nat) : List Char := Nat.toDigits 10 n

/-- an integer in base ten, with a minus sign when it is negative -/
def intChars (i : Int) : List Char :=
  if i < 0 then '-' :: natChars i.natAbs else natChars i.natAbs

theorem digitsValue_natChars (n : Nat) : digitsValue (natChars n) = n :=
  Nat.ofDigitChars_toDigits (by decide) (by decide)

theorem isDigit_of_mem_natChars {n : Nat} {c : Char} (h : c ∈ natChars n) : c.isDigit = true :=
  Nat.isDigit_of_mem_toDigits (by decide) (by decide) h

/-! ## Reading into 64 bits -/

/-- why a text is no 64-bit integer -/
inductive IntegerFault where
  | notDigits
  | tooLarge
  | tooSmall
  deriving DecidableEq, Repr

/-- the integer as a 64-bit word, if it fits -/
def wordOf (i : Int) : Except IntegerFault Int64 :=
  if Int64.maxValue.toInt < i then .error .tooLarge
  else if i < Int64.minValue.toInt then .error .tooSmall
  else .ok (Int64.ofInt i)

/-- Reads an optional minus sign and at least one digit, and nothing else. -/
def wordOfDecimal : List Char → Except IntegerFault Int64
  | '-' :: digits =>
    if digits.isEmpty || !digits.all Char.isDigit then .error .notDigits else wordOf (-(digitsValue digits : Int))
  | digits =>
    if digits.isEmpty || !digits.all Char.isDigit then .error .notDigits else wordOf (digitsValue digits)

end RubySignature
