/-
Taking runs of characters off a text, and reading back the numbers written in it.

A scanner that takes the longest run of a sort of characters takes exactly that run where the text after it does not go
on in the same sort (`Stops`). What is said here of digits is used for every number that is read, in trees and in
parameter lists: a 64-bit integer is read back from its own decimal spelling (`wordOfDecimal_intChars`).
-/
import Mathlib.Algebra.Group.Nat.Defs
import RubySignature.Double.Literal

namespace RubySignature

/-! ## Runs -/

/-- the text is at its end or goes on with a character of another sort -/
def Stops (p : Char → Bool) (rest : List Char) : Prop := ∀ c ∈ rest.head?, p c = false

@[simp] theorem stops_nil (p : Char → Bool) : Stops p [] := by
  intro c hc
  cases hc

@[simp] theorem stops_cons (p : Char → Bool) (c : Char) (rest : List Char) : Stops p (c :: rest) ↔ p c = false := by
  simp [Stops]

instance (p : Char → Bool) : (rest : List Char) → Decidable (Stops p rest)
  | [] => .isTrue (stops_nil p)
  | c :: rest => decidable_of_iff _ (stops_cons p c rest).symm

variable {p : Char → Bool} {run rest : List Char}

/-- characters of different sorts are different -/
theorem ne_of_sort {c d : Char} (hc : p c = true) (hd : p d = false) : c ≠ d := by
  rintro rfl
  rw [hc] at hd
  cases hd

theorem takeWhile_of_stops (h : Stops p rest) : rest.takeWhile p = [] := by
  cases rest with
  | nil => rfl
  | cons c rest =>
    rw [stops_cons] at h
    rw [List.takeWhile_cons, h]
    rfl

theorem dropWhile_of_stops (h : Stops p rest) : rest.dropWhile p = rest := by
  cases rest with
  | nil => rfl
  | cons c rest =>
    rw [stops_cons] at h
    rw [List.dropWhile_cons, h]
    rfl

theorem takeWhile_append_of_stops (hrun : ∀ c ∈ run, p c = true) (hrest : Stops p rest) :
    (run ++ rest).takeWhile p = run := by
  rw [List.takeWhile_append_of_pos hrun, takeWhile_of_stops hrest, List.append_nil]

theorem dropWhile_append_of_stops (hrun : ∀ c ∈ run, p c = true) (hrest : Stops p rest) :
    (run ++ rest).dropWhile p = rest := by
  rw [List.dropWhile_append_of_pos hrun, dropWhile_of_stops hrest]

/-- the longest run of a sort is followed by another sort -/
theorem stops_dropWhile (p : Char → Bool) (s : List Char) : Stops p (s.dropWhile p) := by
  intro c hc
  have hnot := List.head?_dropWhile_not p s
  rw [Option.mem_def.1 hc] at hnot
  simpa using hnot

/-! ## Digits -/

theorem digitRun_append (hrun : ∀ c ∈ run, c.isDigit = true) (hrest : Stops Char.isDigit rest) :
    digitRun (run ++ rest) = run :=
  takeWhile_append_of_stops hrun hrest

theorem afterDigits_append (hrun : ∀ c ∈ run, c.isDigit = true) (hrest : Stops Char.isDigit rest) :
    afterDigits (run ++ rest) = rest :=
  dropWhile_append_of_stops hrun hrest

theorem natChars_ne_nil (n : Nat) : natChars n ≠ [] := Nat.toDigits_ne_nil

theorem digitsValue_append (digits later : List Char) :
    digitsValue (digits ++ later) = digitsValue digits * 10 ^ later.length + digitsValue later := by
  unfold digitsValue
  rw [Nat.ofDigitChars_append, Nat.ofDigitChars_eq_ofDigitChars_zero, Nat.mul_comm]

theorem digitsValue_zeros (n : Nat) : digitsValue (List.replicate n '0') = 0 := by
  unfold digitsValue
  rw [Nat.ofDigitChars_replicate_zero, Nat.mul_zero]

theorem isDigit_zeros (n : Nat) : ∀ c ∈ List.replicate n '0', c.isDigit = true := by
  intro c hc
  rw [List.eq_of_mem_replicate hc]
  rfl

/-- digits do not begin with a sign -/
theorem ne_minus_of_isDigit {c : Char} (h : c.isDigit = true) : c ≠ '-' := ne_of_sort h (by decide)

/-! ## Integers -/

namespace Numeral

theorem scanSign_of_isDigit (hne : run ≠ []) (hrun : ∀ c ∈ run, c.isDigit = true) :
    scanSign (run ++ rest) = (false, run ++ rest) := by
  cases run with
  | nil => exact absurd rfl hne
  | cons c run =>
    have hc := ne_minus_of_isDigit (hrun c List.mem_cons_self)
    rw [List.cons_append]
    unfold scanSign
    split
    · rename_i heq
      exact absurd (List.cons.inj heq).1 hc
    · rfl

theorem scanEitherSign_of_isDigit (hne : run ≠ []) (hrun : ∀ c ∈ run, c.isDigit = true) :
    scanEitherSign (run ++ rest) = (false, run ++ rest) := by
  cases run with
  | nil => exact absurd rfl hne
  | cons c run =>
    have hc := hrun c List.mem_cons_self
    rw [List.cons_append]
    unfold scanEitherSign
    split
    · rename_i heq
      exact absurd (List.cons.inj heq).1 (ne_minus_of_isDigit hc)
    · rename_i heq
      exact absurd (List.cons.inj heq).1 (ne_of_sort hc (by decide))
    · rfl

theorem scanSigned?_intChars (i : Int) (hrest : Stops Char.isDigit rest) :
    scanSigned? (intChars i ++ rest) = some (i, rest) := by
  have hdigits : ∀ c ∈ natChars i.natAbs, c.isDigit = true := fun _ => isDigit_of_mem_natChars
  have hne : (natChars i.natAbs).isEmpty = false := by simpa using natChars_ne_nil i.natAbs
  unfold intChars
  by_cases hi : i < 0
  · have habs : -(i.natAbs : Int) = i := by omega
    rw [if_pos hi, List.cons_append]
    unfold scanSigned? scanEitherSign
    simp only [digitRun_append hdigits hrest, afterDigits_append hdigits hrest, hne, digitsValue_natChars, habs]
    rfl
  · have habs : (i.natAbs : Int) = i := by omega
    rw [if_neg hi]
    unfold scanSigned?
    rw [scanEitherSign_of_isDigit (natChars_ne_nil _) hdigits]
    simp only [digitRun_append hdigits hrest, afterDigits_append hdigits hrest, hne, digitsValue_natChars, habs]
    rfl

end Numeral

theorem wordOf_toInt (value : Int64) : wordOf value.toInt = .ok value := by
  have hmax := Int64.toInt_le value
  have hmin : Int64.minValue.toInt ≤ value.toInt := Int64.le_toInt value
  unfold wordOf
  rw [if_neg (by omega), if_neg (by omega), Int64.ofInt_toInt]

/-- **A 64-bit integer is read back from its decimal spelling.** -/
theorem wordOfDecimal_intChars (value : Int64) : wordOfDecimal (intChars value.toInt) = .ok value := by
  have hdigits : (natChars value.toInt.natAbs).all Char.isDigit = true :=
    List.all_eq_true.2 fun _ => isDigit_of_mem_natChars
  have hne : (natChars value.toInt.natAbs).isEmpty = false := by simpa using natChars_ne_nil value.toInt.natAbs
  unfold intChars
  by_cases hi : value.toInt < 0
  · have habs : -(value.toInt.natAbs : Int) = value.toInt := by omega
    rw [if_pos hi]
    unfold wordOfDecimal
    simp only [hdigits, hne, digitsValue_natChars, habs]
    exact wordOf_toInt value
  · have habs : (value.toInt.natAbs : Int) = value.toInt := by omega
    rw [if_neg hi]
    unfold wordOfDecimal
    split
    · rename_i heq
      have hmem : '-' ∈ natChars value.toInt.natAbs := heq ▸ List.mem_cons_self
      exact absurd (isDigit_of_mem_natChars hmem) (by decide)
    · simp only [hdigits, hne, digitsValue_natChars, habs]
      exact wordOf_toInt value

end RubySignature
