/-
The text of a finite number reads back as that number.

`Numeral.value` is the number that a numeral denotes, without rounding. The layout of digits around a point denotes the
digits times their power of ten (`value_layOut`), so the exact expansion of a magnitude denotes that magnitude, and
reading it rounds nothing. `numeral?_readBack` puts this together: every finite number has a numeral, the numeral is
spelt in a form the scanner takes as a whole, and its nearest number is the number it was written for, whichever of the
shorter candidates was chosen.
-/
import Mathlib.Data.List.TakeWhile
import RubySignature.Double.Shortest
import RubySignature.Proofs.Double.Rounding
import RubySignature.Proofs.Text.Runs

namespace RubySignature

namespace Numeral

/-! ## Values -/

/-- the number a numeral denotes, apart from its sign -/
def value (n : Numeral) : ℚ :=
  (digitsValue (n.whole ++ n.fraction) : ℚ) * 10 ^ (n.exponent - n.fraction.length)

/-- A numeral that denotes a positive magnitude has that magnitude as its nearest number. -/
theorem toDouble_of_value (n : Numeral) {rank : Fin finiteRanks} (hrank : 0 < rank.val)
    (h : n.value = Double.magnitude rank) : n.toDouble = .finite n.negative rank :=
  Double.ofDecimal_exact n.negative hrank h

theorem toDouble_of_value_zero (n : Numeral) (h : n.value = 0) : n.toDouble = .finite n.negative ⟨0, by decide⟩ := by
  have hpow : (10 : ℚ) ^ (n.exponent - n.fraction.length) ≠ 0 := zpow_ne_zero _ (by norm_num)
  have hdigits : digitsValue (n.whole ++ n.fraction) = 0 := by
    have := (mul_eq_zero.1 h).resolve_right hpow
    exact_mod_cast this
  unfold toDouble
  rw [hdigits]
  exact Double.ofDecimal_zero n.negative _

/-! ## Layout -/

/-- the digits that are kept, and the zeros at the end -/
theorem trimZeros_append (digits : List Char) : ∃ zeros, digits = trimZeros digits ++ List.replicate zeros '0' := by
  refine ⟨(digits.reverse.takeWhile (· == '0')).length, ?_⟩
  have hzeros : ∀ c ∈ digits.reverse.takeWhile (· == '0'), c = '0' := by
    intro c hc
    simpa using List.mem_takeWhile_imp hc
  have hsplit : digits.reverse.takeWhile (· == '0') ++ digits.reverse.dropWhile (· == '0') = digits.reverse :=
    List.takeWhile_append_dropWhile
  calc digits = digits.reverse.reverse := (List.reverse_reverse digits).symm
    _ = (digits.reverse.dropWhile (· == '0')).reverse ++ (digits.reverse.takeWhile (· == '0')).reverse := by
      rw [← List.reverse_append, hsplit]
    _ = trimZeros digits ++ List.replicate (digits.reverse.takeWhile (· == '0')).length '0' := by
      rw [List.eq_replicate_of_mem hzeros, List.reverse_replicate, List.length_replicate]
      rfl

theorem mem_of_mem_trimZeros {digits : List Char} {c : Char} (h : c ∈ trimZeros digits) : c ∈ digits := by
  obtain ⟨zeros, hsplit⟩ := trimZeros_append digits
  rw [hsplit]
  exact List.mem_append_left _ h

theorem trimZeros_ne_nil {digits : List Char} (h : digitsValue digits ≠ 0) : trimZeros digits ≠ [] := by
  intro hnil
  obtain ⟨zeros, hsplit⟩ := trimZeros_append digits
  rw [hnil, List.nil_append] at hsplit
  rw [hsplit] at h
  exact h (digitsValue_zeros zeros)

/-- zeros at the end of the digits count by their places only -/
theorem value_trimZeros (digits : List Char) (point : Int) :
    (digitsValue (trimZeros digits) : ℚ) * 10 ^ (point - (trimZeros digits).length) =
      digitsValue digits * 10 ^ (point - digits.length) := by
  obtain ⟨zeros, hsplit⟩ := trimZeros_append digits
  have hvalue : digitsValue digits = digitsValue (trimZeros digits) * 10 ^ zeros := by
    conv_lhs => rw [hsplit, digitsValue_append, digitsValue_zeros, List.length_replicate, Nat.add_zero]
  have hlength : digits.length = (trimZeros digits).length + zeros := by
    conv_lhs => rw [hsplit, List.length_append, List.length_replicate]
  have hexp : point - ((trimZeros digits).length : Int) = (zeros : Int) + (point - digits.length) := by
    rw [hlength]
    push_cast
    ring
  rw [hvalue, hexp, zpow_add₀ (by norm_num), zpow_natCast]
  push_cast
  ring

@[simp] theorem negative_layOut (negative : Bool) (digits : List Char) (point : Int) :
    (layOut negative digits point).negative = negative := by
  simp only [layOut]
  split_ifs <;> rfl

/-- The layout denotes `0.digits · 10 ^ point`. -/
theorem value_layOut (negative : Bool) (digits : List Char) (point : Int) :
    (layOut negative digits point).value = digitsValue digits * 10 ^ (point - digits.length) := by
  rw [← value_trimZeros]
  simp only [layOut, value]
  split_ifs with hexp hlow hhigh <;> dsimp only
  · -- exponent form: one digit before the point, if there is any
    rw [List.take_append_drop, List.length_drop]
    by_cases hnil : trimZeros digits = []
    · have hdigits : digitsValue [] = 0 := digitsValue_zeros 0
      rw [hnil, hdigits, Nat.cast_zero, zero_mul, zero_mul]
    · have hlength : 0 < (trimZeros digits).length := List.length_pos_iff.2 hnil
      congr 2
      omega
  · have hvalue : digitsValue (['0'] ++ (List.replicate (-point).toNat '0' ++ trimZeros digits)) =
        digitsValue (trimZeros digits) := by
      rw [← List.append_assoc, digitsValue_append, List.singleton_append, ← List.replicate_succ, digitsValue_zeros]
      omega
    rw [hvalue, List.length_append, List.length_replicate]
    congr 2
    omega
  · have hvalue : digitsValue (trimZeros digits ++ List.replicate (point.toNat - (trimZeros digits).length) '0' ++
        ['0']) = digitsValue (trimZeros digits) * 10 ^ (point.toNat - (trimZeros digits).length + 1) := by
      rw [List.append_assoc, ← List.replicate_one, List.replicate_append_replicate, digitsValue_append,
        digitsValue_zeros, List.length_replicate, Nat.add_zero]
    have hpoint : point - ((trimZeros digits).length : Int) =
        ((point.toNat - (trimZeros digits).length + 1 : Nat) : Int) + (0 - (1 : Nat)) := by
      omega
    rw [hvalue, hpoint, zpow_add₀ (by norm_num), zpow_natCast]
    rw [List.length_singleton]
    push_cast
    ring
  · rw [List.take_append_drop, List.length_drop]
    congr 2
    omega

/-! ## Spelling -/

/-- The numeral is spelt as the scanner expects: digits in front, and a fraction or an exponent after them. -/
structure WellFormed (n : Numeral) : Prop where
  whole_ne_nil : n.whole ≠ []
  whole_digits : ∀ c ∈ n.whole, c.isDigit = true
  fraction_digits : ∀ c ∈ n.fraction, c.isDigit = true
  marked : n.fraction ≠ [] ∨ n.exponent ≠ 0

theorem wellFormed_layOut (negative : Bool) {digits : List Char} (point : Int) (hne : digitsValue digits ≠ 0)
    (hdigits : ∀ c ∈ digits, c.isDigit = true) : (layOut negative digits point).WellFormed := by
  have hkept : ∀ c ∈ trimZeros digits, c.isDigit = true := by
    intro c hc
    exact hdigits c (mem_of_mem_trimZeros hc)
  have hlength : 0 < (trimZeros digits).length := List.length_pos_iff.2 (trimZeros_ne_nil hne)
  simp only [layOut]
  split_ifs with hexp hlow hhigh
  · refine ⟨?_, fun c hc => hkept c (List.mem_of_mem_take hc), fun c hc => hkept c (List.mem_of_mem_drop hc), ?_⟩
    · exact List.ne_nil_of_length_pos (by rw [List.length_take]; omega)
    · right
      show point - 1 ≠ 0
      omega
  · refine ⟨List.cons_ne_nil _ _, isDigit_zeros 1, ?_, Or.inl ?_⟩
    · intro c hc
      rcases List.mem_append.1 hc with hc | hc
      · exact isDigit_zeros _ c hc
      · exact hkept c hc
    · exact List.append_ne_nil_of_right_ne_nil _ (trimZeros_ne_nil hne)
  · refine ⟨List.append_ne_nil_of_left_ne_nil (trimZeros_ne_nil hne) _, ?_, isDigit_zeros 1,
      Or.inl (List.cons_ne_nil _ _)⟩
    intro c hc
    rcases List.mem_append.1 hc with hc | hc
    · exact hkept c hc
    · exact isDigit_zeros _ c hc
  · refine ⟨?_, fun c hc => hkept c (List.mem_of_mem_take hc), fun c hc => hkept c (List.mem_of_mem_drop hc),
      Or.inl ?_⟩
    · exact List.ne_nil_of_length_pos (by rw [List.length_take]; omega)
    · exact List.ne_nil_of_length_pos (by rw [List.length_drop]; omega)

/-- what may not follow a numeral, since it would go on with it -/
def continues (c : Char) : Bool := c.isDigit || c == '.' || c == 'e' || c == 'E'

theorem stops_isDigit {rest : List Char} (h : Stops continues rest) : Stops Char.isDigit rest := by
  intro c hc
  have hstop := h c hc
  simp only [continues, Bool.or_eq_false_iff] at hstop
  exact hstop.1.1.1

theorem scanFraction?_none {rest : List Char} (h : Stops (· == '.') rest) : scanFraction? rest = none := by
  unfold scanFraction?
  split
  · exact absurd h (by rw [stops_cons]; decide)
  · rfl

/-- the digits after the point are read back, or nothing where there is no point -/
theorem scanFraction?_fractionChars {digits rest : List Char} (hdigits : ∀ c ∈ digits, c.isDigit = true)
    (hrest : Stops Char.isDigit rest) (hpoint : Stops (· == '.') rest) :
    scanFraction? (fractionChars digits ++ rest) = if digits = [] then none else some (digits, rest) := by
  unfold fractionChars
  by_cases h : digits = []
  · subst h
    exact scanFraction?_none hpoint
  · rw [if_neg (by simpa using h), if_neg h, List.cons_append]
    unfold scanFraction?
    simp only [digitRun_append hdigits hrest, afterDigits_append hdigits hrest]
    exact if_neg (by simpa using h)

/-- the exponent is read back, or nothing where none was written -/
theorem scanExponent?_exponentChars (exponent : Int) {rest : List Char} (h : Stops continues rest) :
    scanExponent? (exponentChars exponent ++ rest) = if exponent = 0 then none else some (exponent, rest) := by
  unfold exponentChars
  by_cases h0 : exponent = 0
  · rw [if_pos h0, if_pos h0, List.nil_append]
    unfold scanExponent?
    split
    · exact absurd h (by rw [stops_cons]; decide)
    · exact absurd h (by rw [stops_cons]; decide)
    · rfl
  · rw [if_neg h0, if_neg h0]
    exact scanSigned?_intChars exponent (stops_isDigit h)

theorem stops_exponentChars (exponent : Int) {rest : List Char} (h : Stops continues rest) :
    Stops Char.isDigit (exponentChars exponent ++ rest) ∧ Stops (· == '.') (exponentChars exponent ++ rest) := by
  unfold exponentChars
  by_cases h0 : exponent = 0
  · rw [if_pos h0, List.nil_append]
    refine ⟨stops_isDigit h, ?_⟩
    intro c hc
    have hstop := h c hc
    simp only [continues, Bool.or_eq_false_iff] at hstop
    exact hstop.1.1.2
  · rw [if_neg h0, List.cons_append, stops_cons, stops_cons]
    exact ⟨rfl, rfl⟩

theorem stops_fractionChars (digits : List Char) {rest : List Char} (h : Stops Char.isDigit rest) :
    Stops Char.isDigit (fractionChars digits ++ rest) := by
  cases digits with
  | nil => exact h
  | cons c digits =>
    rw [fractionChars, List.isEmpty_cons, if_neg Bool.false_ne_true, List.cons_append, stops_cons]
    rfl

theorem scanSign_signed (negative : Bool) {whole : List Char} (hne : whole ≠ [])
    (hdigits : ∀ c ∈ whole, c.isDigit = true) (rest : List Char) :
    scanSign ((if negative then ['-'] else []) ++ (whole ++ rest)) = (negative, whole ++ rest) := by
  cases negative with
  | true => rfl
  | false =>
    rw [if_neg Bool.false_ne_true, List.nil_append]
    exact scanSign_of_isDigit hne hdigits

/-- **A numeral is scanned as it was spelt**, whatever text that does not go on with it comes after. -/
theorem scan?_chars {n : Numeral} (hn : n.WellFormed) {rest : List Char} (hrest : Stops continues rest) :
    scan? (n.chars ++ rest) = some (n, rest) := by
  obtain ⟨negative, whole, fraction, exponent⟩ := n
  obtain ⟨hne, hwhole, hfraction, hmarked⟩ := hn
  dsimp only at hne hwhole hfraction hmarked
  obtain ⟨hdigit, hpoint⟩ := stops_exponentChars exponent hrest
  have hfrac := scanFraction?_fractionChars hfraction hdigit hpoint
  have hexp := scanExponent?_exponentChars exponent hrest
  have hstop := stops_fractionChars fraction hdigit
  have hempty : whole.isEmpty = false := by simpa using hne
  unfold scan? chars
  simp only [List.append_assoc, scanSign_signed negative hne hwhole, digitRun_append hwhole hstop,
    afterDigits_append hwhole hstop, hempty, hfrac]
  by_cases h : fraction = []
  · have h0 : exponent ≠ 0 := hmarked.resolve_left (not_not.2 h)
    rw [if_neg h0] at hexp
    subst h
    simp only [if_true, fractionChars, List.isEmpty_nil, List.nil_append, hexp]
    rfl
  · simp only [if_neg h, hexp]
    by_cases h0 : exponent = 0
    · rw [if_pos h0, h0]
      rfl
    · rw [if_neg h0]
      rfl

end Numeral

/-! ## Finite numbers -/

namespace Double

theorem units_expansion (count scale : ℕ) :
    ((count * 5 ^ scale : ℕ) : ℚ) * 10 ^ (-(scale : ℤ)) * 2 ^ scale = count := by
  rw [zpow_neg, zpow_natCast, show (10 : ℚ) = 5 * 2 from by norm_num, mul_pow]
  push_cast
  field_simp

theorem digitsValue_expansion {rank scale : Nat} (hscale : 1074 = scale) :
    digitsValue (expansion rank) = units rank * 5 ^ scale := by
  unfold expansion
  generalize 1074 = places at hscale ⊢
  rw [digitsValue_natChars, hscale]

theorem expansion_ne_zero {rank : Nat} (hrank : 0 < rank) : digitsValue (expansion rank) ≠ 0 := by
  rw [digitsValue_expansion rfl]
  exact mul_ne_zero (units_pos hrank).ne' (pow_ne_zero _ (by decide))

/-- the exact expansion of a magnitude denotes it -/
theorem value_expansion (negative : Bool) (rank : Nat) :
    (Numeral.layOut negative (expansion rank) ((expansion rank).length - 1074)).value = magnitude rank := by
  rw [Numeral.value_layOut, eq_magnitude_iff]
  generalize hscale : 1074 = scale
  have hexp : ((expansion rank).length : Int) - (1074 : ℤ) - (expansion rank).length = -(scale : ℤ) := by
    omega
  rw [hexp, digitsValue_expansion hscale]
  exact units_expansion (units rank) scale

theorem layOut_of_mem_neighbours {negative : Bool} {digits : List Char} {count : Nat} {n : Numeral}
    (h : n ∈ neighbours negative digits count) : ∃ value point, n = Numeral.layOut negative (natChars value) point := by
  unfold neighbours at h
  dsimp only at h
  split_ifs at h <;> simp only [List.mem_cons, List.not_mem_nil, or_false] at h <;> rcases h with rfl | rfl <;>
    exact ⟨_, _, rfl⟩

/-- a numeral of digits that reads as a positive magnitude has a digit other than zero -/
theorem layOut_ne_zero {negative : Bool} {value : Nat} {point : Int} {rank : Fin finiteRanks} (hrank : 0 < rank.val)
    (h : (Numeral.layOut negative (natChars value) point).toDouble = .finite negative rank) : value ≠ 0 := by
  rintro rfl
  have hzero : (Numeral.layOut negative (natChars 0) point).value = 0 := by
    rw [Numeral.value_layOut, digitsValue_natChars, Nat.cast_zero, zero_mul]
  rw [Numeral.toDouble_of_value_zero _ hzero] at h
  have hval : (0 : Nat) = rank.val := congrArg Fin.val (Double.finite.inj h).2
  omega

/-- the numerals that are tried before the exact expansion -/
def candidates (negative : Bool) (rank : Nat) : List Numeral :=
  (List.range 17).flatMap fun i => neighbours negative (expansion rank) (i + 1)

theorem numeral?_zero (negative : Bool) {rank : Fin finiteRanks} (hrank : rank.val = 0) :
    (Double.finite negative rank).numeral? = some ⟨negative, ['0'], ['0'], 0⟩ := by
  unfold numeral?
  exact if_pos hrank

theorem numeral?_finite (negative : Bool) {rank : Fin finiteRanks} (hrank : 0 < rank.val) :
    (Double.finite negative rank).numeral? =
      some (((candidates negative rank).find? fun n => n.toDouble = .finite negative rank).getD
        (Numeral.layOut negative (expansion rank) ((expansion rank).length - 1074))) := by
  unfold numeral?
  exact if_neg hrank.ne'

/-- **Every finite number is read back from its text.** It has a numeral, which is spelt as the scanner expects, and
the number nearest to that numeral is the number itself. -/
theorem numeral?_readBack {x : Double} (hx : x.isFinite = true) :
    ∃ n, x.numeral? = some n ∧ n.WellFormed ∧ n.toDouble = x := by
  cases x with
  | nan => cases hx
  | infinite negative => cases hx
  | finite negative rank =>
    by_cases h0 : rank.val = 0
    · have hzeros := isDigit_zeros 1
      have hzero : Numeral.value ⟨negative, ['0'], ['0'], 0⟩ = 0 := by
        have hdigits : digitsValue (['0'] ++ ['0']) = 0 := digitsValue_zeros 2
        rw [Numeral.value, hdigits, Nat.cast_zero, zero_mul]
      rw [numeral?_zero negative h0]
      refine ⟨_, rfl, ⟨List.cons_ne_nil _ _, hzeros, hzeros, Or.inl (List.cons_ne_nil _ _)⟩, ?_⟩
      rw [Numeral.toDouble_of_value_zero _ hzero]
      exact congrArg (Double.finite negative) (Fin.ext h0.symm)
    · have hrank : 0 < rank.val := Nat.pos_of_ne_zero h0
      rw [numeral?_finite negative hrank]
      refine ⟨_, rfl, ?_⟩
      cases hfind : (candidates negative rank).find? fun n => n.toDouble = .finite negative rank with
      | none =>
        -- no shorter numeral was found: the exact expansion denotes the number
        rw [Option.getD_none]
        refine ⟨Numeral.wellFormed_layOut negative _ (expansion_ne_zero hrank) fun _ => isDigit_of_mem_natChars, ?_⟩
        rw [Numeral.toDouble_of_value _ hrank (value_expansion negative rank), Numeral.negative_layOut]
      | some n =>
        rw [Option.getD_some]
        have hread : n.toDouble = .finite negative rank := by simpa using List.find?_some hfind
        obtain ⟨i, -, hmem⟩ := List.mem_flatMap.1 (List.mem_of_find?_eq_some hfind)
        obtain ⟨value, point, rfl⟩ := layOut_of_mem_neighbours hmem
        have hvalue : digitsValue (natChars value) ≠ 0 := by
          rw [digitsValue_natChars]
          exact layOut_ne_zero hrank hread
        exact ⟨Numeral.wellFormed_layOut negative point hvalue fun _ => isDigit_of_mem_natChars, hread⟩

end Double

end RubySignature
