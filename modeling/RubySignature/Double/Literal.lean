/-
Decimal literals of binary64 numbers.

A `Numeral` is spelt with a fraction or an exponent, and keeps the digits on both sides of the point and the exponent.
`Numeral.chars` spells it, `Numeral.scan?` takes the longest one off the front of a text, and `Numeral.toDouble` is the
nearest binary64 number. `Double.ofText?` reads a whole text as any literal: digits with or without a point or an exponent,
an infinity, or NaN.
-/
import RubySignature.Decimal
import RubySignature.Double.Basic

namespace RubySignature

structure Numeral where
  /-- written with a minus sign -/
  negative : Bool
  /-- the digits before the point -/
  whole : List Char
  /-- the digits after the point, none if there is no point -/
  fraction : List Char
  /-- the power of ten that follows the digits -/
  exponent : Int
  deriving DecidableEq, Repr

namespace Numeral

/-- the nearest binary64 number -/
def toDouble (n : Numeral) : Double :=
  Double.ofDecimal n.negative (digitsValue (n.whole ++ n.fraction)) (n.exponent - n.fraction.length)

/-! ## Spelling -/

/-- the point and the digits after it -/
def fractionChars (digits : List Char) : List Char := if digits.isEmpty then [] else '.' :: digits

def exponentChars (exponent : Int) : List Char := if exponent = 0 then [] else 'e' :: intChars exponent

def chars (n : Numeral) : List Char :=
  (if n.negative then ['-'] else []) ++ n.whole ++ fractionChars n.fraction ++ exponentChars n.exponent

/-! ## Scanning -/

/-- Takes a minus sign off the front, if there is one. -/
def scanSign : List Char → Bool × List Char
  | '-' :: rest => (true, rest)
  | s => (false, s)

/-- Takes a point and at least one digit off the front. -/
def scanFraction? : List Char → Option (List Char × List Char)
  | '.' :: rest => if (digitRun rest).isEmpty then none else some (digitRun rest, afterDigits rest)
  | _ => none

/-- Takes a minus or plus sign off the front, if there is one. -/
def scanEitherSign : List Char → Bool × List Char
  | '-' :: rest => (true, rest)
  | '+' :: rest => (false, rest)
  | s => (false, s)

/-- Takes an optional sign of either sort and at least one digit off the front. -/
def scanSigned? (s : List Char) : Option (Int × List Char) :=
  let (negative, s) := scanEitherSign s
  if (digitRun s).isEmpty then none
  else some (if negative then -(digitsValue (digitRun s) : Int) else digitsValue (digitRun s), afterDigits s)

/-- Takes an exponent mark with its number off the front. -/
def scanExponent? : List Char → Option (Int × List Char)
  | 'e' :: rest => scanSigned? rest
  | 'E' :: rest => scanSigned? rest
  | _ => none

/-- Takes the longest numeral with a fraction, an exponent or both off the front. -/
def scan? (s : List Char) : Option (Numeral × List Char) :=
  let (negative, s) := scanSign s
  let whole := digitRun s
  let rest := afterDigits s
  if whole.isEmpty then none
  else match scanFraction? rest with
    | some (fraction, rest) =>
      match scanExponent? rest with
      | some (exponent, rest) => some (⟨negative, whole, fraction, exponent⟩, rest)
      | none => some (⟨negative, whole, fraction, 0⟩, rest)
    | none =>
      match scanExponent? rest with
      | some (exponent, rest) => some (⟨negative, whole, [], exponent⟩, rest)
      | none => none

/-! ## Progress of the scanners -/

theorem length_scanSign_le (s : List Char) : (scanSign s).2.length ≤ s.length := by
  unfold scanSign
  split <;> simp

theorem length_of_scanFraction? {s rest digits : List Char} (h : scanFraction? s = some (digits, rest)) :
    rest.length ≤ s.length := by
  unfold scanFraction? at h
  split at h
  · split at h
    · cases h
    · obtain ⟨-, rfl⟩ := Prod.mk.inj (Option.some.inj h)
      exact Nat.le_succ_of_le (length_afterDigits_le _)
  · cases h

theorem length_scanEitherSign_le (s : List Char) : (scanEitherSign s).2.length ≤ s.length := by
  unfold scanEitherSign
  split <;> simp

theorem length_of_scanSigned? {s rest : List Char} {i : Int} (h : scanSigned? s = some (i, rest)) :
    rest.length ≤ s.length := by
  unfold scanSigned? at h
  dsimp only at h
  split at h
  · cases h
  · obtain ⟨-, rfl⟩ := Prod.mk.inj (Option.some.inj h)
    exact Nat.le_trans (length_afterDigits_le _) (length_scanEitherSign_le s)

theorem length_of_scanExponent? {s rest : List Char} {i : Int} (h : scanExponent? s = some (i, rest)) :
    rest.length ≤ s.length := by
  unfold scanExponent? at h
  split at h
  · exact Nat.le_succ_of_le (length_of_scanSigned? h)
  · exact Nat.le_succ_of_le (length_of_scanSigned? h)
  · cases h

theorem length_of_scan? {s rest : List Char} {n : Numeral} (h : scan? s = some (n, rest)) :
    rest.length < s.length := by
  have hsign := length_scanSign_le s
  unfold scan? at h
  dsimp only at h
  split at h
  · cases h
  · rename_i hwhole
    have hdigits := length_afterDigits_lt hwhole
    split at h
    · rename_i fraction tail hpoint
      have hfraction := length_of_scanFraction? hpoint
      split at h
      · rename_i exponent left hmark
        have hexponent := length_of_scanExponent? hmark
        obtain ⟨-, rfl⟩ := Prod.mk.inj (Option.some.inj h)
        omega
      · obtain ⟨-, rfl⟩ := Prod.mk.inj (Option.some.inj h)
        omega
    · split at h
      · rename_i exponent left hmark
        have hexponent := length_of_scanExponent? hmark
        obtain ⟨-, rfl⟩ := Prod.mk.inj (Option.some.inj h)
        omega
      · cases h

end Numeral

/-! ## Literals of every form -/

/-- Reads a literal without sign: digits on at least one side of an optional point, then an optional exponent. -/
def Numeral.ofUnsigned? (negative : Bool) (s : List Char) : Option Numeral :=
  let whole := digitRun s
  let (fraction, rest) := match afterDigits s with
    | '.' :: rest => (digitRun rest, afterDigits rest)
    | rest => ([], rest)
  if whole.isEmpty && fraction.isEmpty then none
  else if rest.isEmpty then some ⟨negative, whole, fraction, 0⟩
  else match scanExponent? rest with
    | some (exponent, []) => some ⟨negative, whole, fraction, exponent⟩
    | _ => none

/-- The number nearest to the value of a literal. -/
def Double.ofText? (text : String) : Option Double :=
  let (negative, s) := Numeral.scanEitherSign text.toList
  if s = ['i', 'n', 'f'] then some (.infinite negative)
  else if s = ['N', 'a', 'N'] then some .nan
  else (Numeral.ofUnsigned? negative s).map Numeral.toDouble

end RubySignature
