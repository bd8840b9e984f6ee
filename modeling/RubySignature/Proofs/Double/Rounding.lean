/-
Rounding leaves the numbers themselves alone.

A decimal value that is exactly the magnitude of a rank reads as the number of that rank (`ofDecimal_exact`), whatever
digits and exponent it is written with. In units of 2^-1074 a magnitude is a whole number of its own spacings, so the
rounded division has nothing to round (`nearestRank_units`), and no magnitude is so large or so small that the shortcuts
of `ofDecimal` apply to it.
-/
import Mathlib.Tactic
import RubySignature.Double.Literal

namespace RubySignature.Double

/-! ## Magnitudes -/

/-- below 2^53 the spacing is one unit -/
theorem doublings_of_lt {rank : Nat} (h : rank < 2 ^ 53) : doublings rank = 0 := by
  unfold doublings
  omega

/-- the number of spacings in the magnitude of a rank -/
theorem significand_lt (rank : Nat) : rank - doublings rank * 2 ^ 52 < 2 ^ 53 := by
  unfold doublings
  omega

theorem le_significand {rank : Nat} (h : 2 ^ 53 ≤ rank) : 2 ^ 52 ≤ rank - doublings rank * 2 ^ 52 := by
  unfold doublings
  omega

theorem units_pos {rank : Nat} (h : 0 < rank) : 0 < units rank := by
  have hsig : 0 < rank - doublings rank * 2 ^ 52 := by
    unfold doublings
    omega
  exact Nat.mul_pos hsig (by positivity)

/-- no magnitude reaches 2^1024 -/
theorem units_lt {rank bound : Nat} (h : rank < finiteRanks) (hbound : bound = 2098) : units rank < 2 ^ bound := by
  have hd : 53 + doublings rank ≤ bound := by
    unfold doublings
    unfold finiteRanks at h
    omega
  calc units rank < 2 ^ 53 * 2 ^ doublings rank := Nat.mul_lt_mul_of_pos_right (significand_lt rank) (by positivity)
    _ = 2 ^ (53 + doublings rank) := (Nat.pow_add 2 _ _).symm
    _ ≤ 2 ^ bound := Nat.pow_le_pow_right (by decide) hd

/-- the spacing at a magnitude can be read off its length in binary -/
theorem log2_units (rank : Nat) : (units rank).log2 - 52 = doublings rank := by
  by_cases h : rank < 2 ^ 53
  · have hu : units rank = rank := by simp [units, doublings_of_lt h]
    rw [hu, doublings_of_lt h]
    have : rank.log2 < 53 ∨ rank = 0 := by
      by_cases h0 : rank = 0
      · exact Or.inr h0
      · exact Or.inl ((Nat.log2_lt h0).2 h)
    rcases this with h | h
    · omega
    · subst h; rfl
  · have hge := le_significand (not_lt.1 h)
    have hlt := significand_lt rank
    have hlog : (units rank).log2 = 52 + doublings rank := by
      refine (Nat.log2_eq_iff (units_pos (by omega)).ne').2 ⟨?_, ?_⟩
      · rw [Nat.pow_add]
        exact Nat.mul_le_mul_right _ hge
      · rw [show 52 + doublings rank + 1 = 53 + doublings rank from by omega, Nat.pow_add]
        exact Nat.mul_lt_mul_of_pos_right hlt (by positivity)
    omega

/-! ## Exact values -/

theorem roundHalfEven_mul (n k : Nat) (hk : 0 < k) : roundHalfEven (n * k) k = n := by
  unfold roundHalfEven
  rw [Nat.mul_mod_left, Nat.mul_div_cancel n hk]
  exact if_pos (Or.inl (by omega))

/-- A magnitude is nearest to its own rank, over any denominator. -/
theorem nearestRank_units (rank k : Nat) (hk : 0 < k) : nearestRank (units rank * k) k = rank := by
  unfold nearestRank
  rw [Nat.mul_div_cancel _ hk, log2_units]
  have hsplit : units rank * k = (rank - doublings rank * 2 ^ 52) * (k * 2 ^ doublings rank) := by
    unfold units
    ring
  simp only
  rw [hsplit, roundHalfEven_mul _ _ (by positivity)]
  unfold doublings
  omega

theorem ofUnits_units (negative : Bool) (rank : Fin finiteRanks) (k : Nat) (hk : 0 < k) :
    ofUnits negative (units rank * k) k = .finite negative rank := by
  unfold ofUnits
  simp only [nearestRank_units rank k hk, rank.isLt, ↓reduceDIte]

/-! ## The shortcuts -/

/-- no finite magnitude has a decimal exponent beyond 400 -/
theorem exponent_le_of_units {rank : Fin finiteRanks} {digits exponent scale : Nat} (hscale : 1074 = scale)
    (hdigits : digits ≠ 0) (h : digits * 10 ^ exponent * 2 ^ scale = units rank) : exponent ≤ 400 := by
  by_contra hlt
  have hpow : (2 : Nat) ^ (3 * exponent + scale) < 2 ^ (scale + 1024) := by
    calc (2 : Nat) ^ (3 * exponent + scale) = (2 ^ 3) ^ exponent * 2 ^ scale := by rw [Nat.pow_add, Nat.pow_mul]
      _ ≤ 10 ^ exponent * 2 ^ scale := Nat.mul_le_mul_right _ (Nat.pow_le_pow_left (by decide) _)
      _ ≤ digits * 10 ^ exponent * 2 ^ scale :=
        Nat.mul_le_mul_right _ (Nat.le_mul_of_pos_left _ (Nat.pos_of_ne_zero hdigits))
      _ = units rank := h
      _ < 2 ^ (scale + 1024) := units_lt rank.isLt (by omega)
  have hexp := (Nat.pow_lt_pow_iff_right (by decide)).1 hpow
  omega

/-- a positive magnitude with many places after the point has digits enough to make up for them -/
theorem exponent_ge_of_units {rank : Fin finiteRanks} {digits places scale : Nat} (hscale : 1074 = scale)
    (hrank : 0 < rank.val) (h : digits * 2 ^ scale = units rank * 10 ^ places) : places ≤ digits.log2 + 400 := by
  by_contra hlt
  have hdigits : digits < 2 ^ (places - 400) :=
    lt_of_lt_of_le Nat.lt_log2_self (Nat.pow_le_pow_right (by decide) (by omega))
  have hpow : (2 : Nat) ^ (3 * places) < 2 ^ (places - 400 + scale) := by
    calc (2 : Nat) ^ (3 * places) = (2 ^ 3) ^ places := Nat.pow_mul 2 3 places
      _ ≤ 10 ^ places := Nat.pow_le_pow_left (by decide) _
      _ ≤ units rank * 10 ^ places := Nat.le_mul_of_pos_left _ (units_pos hrank)
      _ = digits * 2 ^ scale := h.symm
      _ < 2 ^ (places - 400) * 2 ^ scale := Nat.mul_lt_mul_of_pos_right hdigits (by positivity)
      _ = 2 ^ (places - 400 + scale) := (Nat.pow_add 2 _ _).symm
  have hexp := (Nat.pow_lt_pow_iff_right (by decide)).1 hpow
  omega

/-! ## Decimal values -/

def magnitude (rank : Nat) : ℚ := units rank / 2 ^ 1074

theorem eq_magnitude_iff {x : ℚ} {rank : Nat} : x = magnitude rank ↔ x * 2 ^ 1074 = units rank :=
  eq_div_iff (pow_ne_zero _ two_ne_zero)

theorem ofDecimal_zero (negative : Bool) (exponent : Int) :
    ofDecimal negative 0 exponent = .finite negative ⟨0, by decide⟩ := by
  unfold ofDecimal
  exact if_pos rfl

/-- **Exact decimal values are not rounded.** Digits and an exponent that denote the magnitude of a positive rank give
the number of that rank. -/
theorem ofDecimal_exact (negative : Bool) {rank : Fin finiteRanks} (hrank : 0 < rank.val) {digits : Nat}
    {exponent : Int} (h : (digits : ℚ) * 10 ^ exponent = magnitude rank) :
    ofDecimal negative digits exponent = .finite negative rank := by
  have hunits := units_pos hrank
  rw [eq_magnitude_iff] at h
  unfold ofDecimal
  generalize hscale : 1074 = scale at h ⊢
  have hdigits : digits ≠ 0 := by
    rintro rfl
    have : (0 : ℚ) = units rank := by simpa using h
    exact hunits.ne (by exact_mod_cast this)
  rw [if_neg hdigits]
  by_cases hsign : 0 ≤ exponent
  · -- no places after the point: the digits with their zeros are a whole number of units
    obtain ⟨k, rfl⟩ := Int.eq_ofNat_of_zero_le hsign
    have hnat : digits * 10 ^ k * 2 ^ scale = units rank := by
      rw [zpow_natCast] at h
      exact_mod_cast h
    have hk := exponent_le_of_units hscale hdigits hnat
    rw [if_neg (by omega), if_neg (by omega), if_pos hsign, Int.toNat_natCast, hnat]
    simpa using ofUnits_units negative rank 1 (by decide)
  · obtain ⟨k, rfl⟩ : ∃ k : ℕ, exponent = -(k : ℤ) := ⟨(-exponent).toNat, by omega⟩
    have hnat : digits * 2 ^ scale = units rank * 10 ^ k := by
      rw [zpow_neg, zpow_natCast, mul_right_comm, ← div_eq_mul_inv, div_eq_iff (by positivity)] at h
      exact_mod_cast h
    have hk := exponent_ge_of_units hscale hrank hnat
    rw [if_neg (by omega), if_neg (by omega), if_neg hsign, Int.neg_neg, Int.toNat_natCast, hnat]
    exact ofUnits_units negative rank (10 ^ k) (by positivity)

end RubySignature.Double
