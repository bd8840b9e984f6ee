/-
The shortest decimal text that reads back to a binary64 number.

The exact decimal expansion of a magnitude is cut after 1, 2, … 17 digits. At each length the two neighbours on that
decimal grid are tried, the nearer one first (an exact half goes up), and the first numeral whose value is the number
itself is the answer. `Double.numeral?` ends in the exact expansion, so it answers for every finite number.

Numerals are positional from 10^-4 up to 10^16, with at least one digit after the point, and in exponent form outside.
-/
import RubySignature.Double.Literal

namespace RubySignature

namespace Numeral

/-! ## Layout -/

def trimZeros (digits : List Char) : List Char := (digits.reverse.dropWhile (· == '0')).reverse

/-- The numeral for `0.digits · 10 ^ point`: positional while the point stays close to the digits, and with a single
digit before the point otherwise. -/
def layOut (negative : Bool) (digits : List Char) (point : Int) : Numeral :=
  let digits := trimZeros digits
  if point < -3 ∨ 16 < point then ⟨negative, digits.take 1, digits.drop 1, point - 1⟩
  else if point ≤ 0 then ⟨negative, ['0'], List.replicate (-point).toNat '0' ++ digits, 0⟩
  else if digits.length ≤ point.toNat then
    ⟨negative, digits ++ List.replicate (point.toNat - digits.length) '0', ['0'], 0⟩
  else ⟨negative, digits.take point.toNat, digits.drop point.toNat, 0⟩

end Numeral

namespace Double

/-! ## Digits -/

attribute [local instance (high)] instPowNat

/-- all digits of a positive magnitude; the last one counts multiples of 10^-1074 -/
def expansion (rank : Nat) : List Char := natChars (units rank * 5 ^ (1074 : Nat))

/-- The two numerals of `count` digits on either side of the expansion `digits`, the nearer one first. -/
def neighbours (negative : Bool) (digits : List Char) (count : Nat) : List Numeral :=
  let below := digitsValue (digits.take count)
  let numeral (value : Nat) : Numeral :=
    Numeral.layOut negative (natChars value) (digits.length - 1074 + ((natChars value).length - count))
  if (digits.drop count).headD '0' < '5' then [numeral below, numeral (below + 1)]
  else [numeral (below + 1), numeral below]

/-- The numeral of a finite number; infinities and NaN have none. -/
def numeral? : Double → Option Numeral
  | .finite negative rank =>
    if rank.val = 0 then some ⟨negative, ['0'], ['0'], 0⟩
    else
      let digits := expansion rank
      let shortest? := ((List.range 17).flatMap fun i => neighbours negative digits (i + 1)).find?
        fun n => n.toDouble = .finite negative rank
      some (shortest?.getD (Numeral.layOut negative digits (digits.length - 1074)))
  | _ => none

def chars (x : Double) : List Char :=
  match x.numeral?, x with
  | some n, _ => n.chars
  | none, .infinite negative => (if negative then ['-'] else []) ++ ['i', 'n', 'f']
  | none, _ => ['N', 'a', 'N']

end Double

end RubySignature
