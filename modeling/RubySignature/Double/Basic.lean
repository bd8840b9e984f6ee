/-
Binary64 floating point numbers, with exact rounding of decimal values.

The finite numbers of one sign are numbered from zero upwards, and that number is the `rank`. In units of 2^-1074, the
least positive magnitude, every magnitude is a natural number (`Double.units`): ranks below 2^53 are their own number of
units, and each further block of 2^52 ranks doubles the spacing. Rounding a quotient of naturals is then one rounded
division (`nearestRank`), with a half going to the even neighbour; a carry into the next block needs no special case,
and a rank past the last finite one is an infinity.
-/
namespace RubySignature

-- powers of naturals are the ones of the core library, also where Mathlib is imported
attribute [local instance (high)] instPowNat

/-- how many finite binary64 numbers there are of one sign -/
abbrev finiteRanks : Nat := 2047 * 2 ^ (52 : Nat)

inductive Double where
  | nan
  | infinite (negative : Bool)
  | finite (negative : Bool) (rank : Fin finiteRanks)
  deriving DecidableEq, Repr

namespace Double

/-! ## Magnitudes -/

/-- how often the spacing has doubled at a rank -/
def doublings (rank : Nat) : Nat := rank / 2 ^ (52 : Nat) - 1

/-- the magnitude of a rank, in units of 2^-1074 -/
def units (rank : Nat) : Nat := (rank - doublings rank * 2 ^ (52 : Nat)) * 2 ^ doublings rank

/-- the quotient rounded to the nearest natural, a half going to the even neighbour -/
def roundHalfEven (num den : Nat) : Nat :=
  if 2 * (num % den) < den ∨ (2 * (num % den) = den ∧ num / den % 2 = 0) then num / den else num / den + 1

/-- the rank nearest to `num / den` units -/
def nearestRank (num den : Nat) : Nat :=
  let spacing := (num / den).log2 - 52
  spacing * 2 ^ (52 : Nat) + roundHalfEven num (den * 2 ^ spacing)

/-- the number of the given sign nearest to `num / den` units -/
def ofUnits (negative : Bool) (num den : Nat) : Double :=
  if h : nearestRank num den < finiteRanks then .finite negative ⟨nearestRank num den, h⟩ else .infinite negative

/-! ## Decimal values -/

/-- The number nearest to `digits · 10 ^ exponent`. Values far beyond either end of the range are settled at once. -/
def ofDecimal (negative : Bool) (digits : Nat) (exponent : Int) : Double :=
  if digits = 0 then .finite negative ⟨0, by decide⟩
  else if 400 < exponent then .infinite negative
  else if exponent + digits.log2 < -400 then .finite negative ⟨0, by decide⟩
  else if 0 ≤ exponent then ofUnits negative (digits * 10 ^ exponent.toNat * 2 ^ (1074 : Nat)) 1
  else ofUnits negative (digits * 2 ^ (1074 : Nat)) (10 ^ (-exponent).toNat)

/-! ## Comparison -/

def isFinite : Double → Bool
  | .finite _ _ => true
  | _ => false

/-- Equality as numbers: a NaN equals nothing, and the two zeros are equal. -/
def numericEq : Double → Double → Bool
  | .infinite a, .infinite b => a == b
  | .finite a m, .finite b n => m == n && (a == b || m.val == 0)
  | _, _ => false

end Double

end RubySignature
