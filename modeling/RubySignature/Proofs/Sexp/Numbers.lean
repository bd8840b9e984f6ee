/-
Numbers are scanned greedily.

The scanners find what the grammar calls the longest number: what they take off the front of a text is a number of the
grammar (`scan?_sound`, `scanInteger?_sound`), and where some number starts they succeed and leave no more than is left
after it (`scan?_reaches`, `scanInteger?_reaches`). A float is tried first, and goes on at least one character beyond the
integer it begins with, so an integer is taken only where no float starts. Together this makes the two descriptions
agree (`scan?_iff`, `scanInteger?_iff`).
-/
import RubySignature.Proofs.Double.ReadBack
import RubySignature.Proofs.Sexp.Grammar

namespace RubySignature

open Sexp

/-! ## Runs of digits -/

variable {s rest : List Char}

theorem stops_afterDigits (s : List Char) : Stops Char.isDigit (afterDigits s) := stops_dropWhile Char.isDigit s

theorem digits_digitRun (h : (digitRun s).isEmpty = false) : Digits (digitRun s) := by
  refine ⟨by simpa using h, ?_⟩
  intro c hc
  exact List.mem_takeWhile_imp hc

theorem Sexp.Digits.isEmpty_append {digits : List Char} (h : Digits digits) (later : List Char) :
    (digits ++ later).isEmpty = false := by
  simp [h.1]

theorem Sexp.Digits.digitRun_append {digits : List Char} (h : Digits digits) (rest : List Char) :
    digitRun (digits ++ rest) = digits ++ digitRun rest :=
  List.takeWhile_append_of_pos h.2

theorem Sexp.Digits.afterDigits_append {digits : List Char} (h : Digits digits) (rest : List Char) :
    afterDigits (digits ++ rest) = afterDigits rest :=
  List.dropWhile_append_of_pos h.2

theorem digitRun_of_stops (h : Stops Char.isDigit s) : digitRun s = [] := takeWhile_of_stops h

theorem afterDigits_of_stops (h : Stops Char.isDigit s) : afterDigits s = s := dropWhile_of_stops h

namespace Numeral

/-! ## Signs -/

theorem minus_scanSign (s : List Char) : minus (scanSign s).1 ++ (scanSign s).2 = s := by
  unfold scanSign
  split <;> rfl

theorem scanSign_minus (negative : Bool) {whole : List Char} (h : Digits whole) (rest : List Char) :
    scanSign (minus negative ++ (whole ++ rest)) = (negative, whole ++ rest) :=
  scanSign_signed negative h.1 h.2 rest

/-- the sign of an exponent may be a plus sign -/
theorem scanEitherSign_sound (s : List Char) : ∃ sign, s = sign ++ (scanEitherSign s).2 ∧
    (sign = [] ∨ sign = ['-'] ∨ sign = ['+']) := by
  unfold scanEitherSign
  split
  · exact ⟨['-'], rfl, Or.inr (Or.inl rfl)⟩
  · exact ⟨['+'], rfl, Or.inr (Or.inr rfl)⟩
  · exact ⟨[], rfl, Or.inl rfl⟩

theorem scanEitherSign_complete {sign digits : List Char} (hsign : sign = [] ∨ sign = ['-'] ∨ sign = ['+'])
    (hdigits : Digits digits) (rest : List Char) :
    scanEitherSign (sign ++ (digits ++ rest)) = (decide (sign = ['-']), digits ++ rest) := by
  rcases hsign with rfl | rfl | rfl
  · rw [List.nil_append]
    exact scanEitherSign_of_isDigit hdigits.1 hdigits.2
  · rfl
  · rfl

theorem scanEitherSign_minus (negative : Bool) {whole : List Char} (h : Digits whole) (rest : List Char) :
    scanEitherSign (minus negative ++ (whole ++ rest)) = (negative, whole ++ rest) := by
  cases negative with
  | true => rfl
  | false =>
    rw [minus, if_neg Bool.false_ne_true, List.nil_append]
    exact scanEitherSign_of_isDigit h.1 h.2

/-! ## Parts of a number -/

theorem scanFraction?_sound {digits : List Char} (h : scanFraction? s = some (digits, rest)) :
    s = '.' :: (digits ++ rest) ∧ Digits digits ∧ Stops Char.isDigit rest := by
  unfold scanFraction? at h
  split at h
  · rename_i tail
    split at h
    · cases h
    · rename_i hdigits
      obtain ⟨rfl, rfl⟩ := Prod.mk.inj (Option.some.inj h)
      rw [digitRun_append_afterDigits]
      exact ⟨rfl, digits_digitRun (by simpa using hdigits), stops_afterDigits tail⟩
  · cases h

theorem scanFraction?_complete {digits : List Char} (h : Digits digits) (rest : List Char) :
    scanFraction? ('.' :: (digits ++ rest)) = some (digits ++ digitRun rest, afterDigits rest) := by
  unfold scanFraction?
  simp only [h.isEmpty_append, h.digitRun_append, h.afterDigits_append]
  rfl

theorem scanSigned?_complete {sign digits : List Char} (hsign : sign = [] ∨ sign = ['-'] ∨ sign = ['+'])
    (hdigits : Digits digits) (rest : List Char) :
    scanSigned? (sign ++ (digits ++ rest)) =
      some (if sign = ['-'] then -(digitsValue (digits ++ digitRun rest) : Int)
        else digitsValue (digits ++ digitRun rest), afterDigits rest) := by
  unfold scanSigned?
  simp only [scanEitherSign_complete hsign hdigits, hdigits.isEmpty_append, hdigits.digitRun_append,
    hdigits.afterDigits_append, decide_eq_true_eq]
  rfl

theorem scanSigned?_sound {i : Int} (h : scanSigned? s = some (i, rest)) :
    ∃ sign digits, s = sign ++ (digits ++ rest) ∧ (sign = [] ∨ sign = ['-'] ∨ sign = ['+']) ∧ Digits digits ∧
      scanSigned? (sign ++ digits) = some (i, []) := by
  obtain ⟨sign, hs, hsign⟩ := scanEitherSign_sound s
  have hsplit := digitRun_append_afterDigits (scanEitherSign s).2
  have hscan := h
  unfold scanSigned? at hscan
  simp only at hscan
  split at hscan
  · cases hscan
  · rename_i hempty
    have hdigits : Digits (digitRun (scanEitherSign s).2) := digits_digitRun (by simpa using hempty)
    obtain ⟨-, hrest⟩ := Prod.mk.inj (Option.some.inj hscan)
    have hstop : digitRun rest = [] := digitRun_of_stops (hrest ▸ stops_afterDigits _)
    rw [hrest] at hsplit
    rw [← hsplit] at hs
    refine ⟨sign, _, hs, hsign, hdigits, ?_⟩
    -- the digits end where the text does, so the number is the one that was read
    have hwhole := scanSigned?_complete hsign hdigits rest
    have halone := scanSigned?_complete hsign hdigits []
    rw [← hs, h, hstop] at hwhole
    rw [List.append_nil] at halone
    rw [halone]
    exact congrArg (fun i => some (i, [])) (Prod.mk.inj (Option.some.inj hwhole)).1.symm

theorem scanExponent?_complete {exponent : List Char} (h : ExponentText exponent) (rest : List Char) :
    ∃ i, scanExponent? (exponent ++ rest) = some (i, afterDigits rest) := by
  obtain ⟨hmark, hsign, hdigits⟩ := h
  have hscan := scanSigned?_complete hsign hdigits rest
  rw [List.cons_append, List.append_assoc]
  rcases hmark with rfl | rfl
  · exact ⟨_, hscan⟩
  · exact ⟨_, hscan⟩

theorem scanExponent?_sound {i : Int} (h : scanExponent? s = some (i, rest)) :
    ∃ exponent, s = exponent ++ rest ∧ ExponentText exponent ∧ scanExponent? exponent = some (i, []) := by
  unfold scanExponent? at h
  split at h
  · obtain ⟨sign, digits, rfl, hsign, hdigits, halone⟩ := scanSigned?_sound h
    exact ⟨'e' :: (sign ++ digits), by simp, .intro (Or.inl rfl) hsign hdigits, halone⟩
  · obtain ⟨sign, digits, rfl, hsign, hdigits, halone⟩ := scanSigned?_sound h
    exact ⟨'E' :: (sign ++ digits), by simp, .intro (Or.inr rfl) hsign hdigits, halone⟩
  · cases h

/-- an exponent begins with its mark, neither with a digit nor with a point -/
theorem stops_exponentText {exponent : List Char} (h : ExponentText exponent) (rest : List Char) :
    Stops Char.isDigit (exponent ++ rest) ∧ Stops (· == '.') (exponent ++ rest) := by
  obtain ⟨rfl | rfl, -, -⟩ := h <;> rw [List.cons_append, stops_cons, stops_cons] <;> exact ⟨rfl, rfl⟩

/-! ## Values of literals -/

theorem ofText?_minus (negative : Bool) {whole : List Char} (h : Digits whole) (tail : List Char) :
    Double.ofText? (String.ofList (minus negative ++ (whole ++ tail))) =
      (ofUnsigned? negative (whole ++ tail)).map toDouble := by
  have hword {c : Char} (hc : c.isDigit = false) (word : List Char) : whole ++ tail ≠ c :: word := by
    obtain ⟨d, digits, rfl⟩ := List.exists_cons_of_ne_nil h.1
    intro heq
    exact ne_of_sort (h.2 d List.mem_cons_self) hc (List.cons.inj heq).1
  unfold Double.ofText?
  simp only [String.toList_ofList, scanEitherSign_minus negative h]
  rw [if_neg (hword (by decide) _), if_neg (hword (by decide) _)]

theorem ofUnsigned?_fraction (negative : Bool) {whole fraction tail : List Char} (hwhole : Digits whole)
    (hfraction : Digits fraction) (htail : Stops Char.isDigit tail) :
    ofUnsigned? negative (whole ++ '.' :: (fraction ++ tail)) =
      if tail.isEmpty then some ⟨negative, whole, fraction, 0⟩
      else match scanExponent? tail with
        | some (exponent, []) => some ⟨negative, whole, fraction, exponent⟩
        | _ => none := by
  have hpoint : Stops Char.isDigit ('.' :: (fraction ++ tail)) := (stops_cons _ _ _).2 rfl
  have hne : whole.isEmpty = false := by simpa using hwhole.1
  unfold ofUnsigned?
  simp only [digitRun_append hwhole.2 hpoint, afterDigits_append hwhole.2 hpoint,
    digitRun_append hfraction.2 htail, afterDigits_append hfraction.2 htail, hne,
    Bool.false_and]
  rfl

theorem ofUnsigned?_exponent (negative : Bool) {whole exponent : List Char} {i : Int} (hwhole : Digits whole)
    (hexponent : ExponentText exponent) (hscan : scanExponent? exponent = some (i, [])) :
    ofUnsigned? negative (whole ++ exponent) = some ⟨negative, whole, [], i⟩ := by
  obtain ⟨hdigit, hpoint⟩ := stops_exponentText hexponent []
  rw [List.append_nil] at hdigit hpoint
  have hne : whole.isEmpty = false := by simpa using hwhole.1
  have hempty : exponent.isEmpty = false := by
    obtain ⟨-, -, -⟩ := hexponent
    rfl
  unfold ofUnsigned?
  simp only [digitRun_append hwhole.2 hdigit, afterDigits_append hwhole.2 hdigit]
  split
  · exact absurd ((stops_cons _ _ _).1 hpoint) (by decide)
  · simp only [hne, hempty, hscan, Bool.false_and]
    rfl

/-! ## Floats -/

/-- What is scanned as a float is one, and has the value of its literal. -/
theorem scan?_sound {n : Numeral} (h : scan? s = some (n, rest)) :
    ∃ spelling, s = spelling ++ rest ∧ FloatText spelling ∧
      Double.ofText? (String.ofList spelling) = some n.toDouble := by
  have hsign := minus_scanSign s
  have hsplit := digitRun_append_afterDigits (scanSign s).2
  unfold scan? at h
  simp only at h
  split at h
  · cases h
  · rename_i hempty
    have hwhole : Digits (digitRun (scanSign s).2) := digits_digitRun (by simpa using hempty)
    revert hsign hsplit h hwhole
    generalize (scanSign s).1 = negative
    generalize (scanSign s).2 = unsigned
    generalize digitRun unsigned = whole
    generalize afterDigits unsigned = after
    rintro rfl rfl h hwhole
    split at h
    · rename_i fraction tail hfraction
      obtain ⟨rfl, hdigits, hstop⟩ := scanFraction?_sound hfraction
      split at h
      · rename_i i later hexponent
        obtain ⟨exponent, rfl, htext, halone⟩ := scanExponent?_sound hexponent
        obtain ⟨rfl, rfl⟩ := Prod.mk.inj (Option.some.inj h)
        refine ⟨_, by simp, .both negative hwhole hdigits htext, ?_⟩
        have hend := (stops_exponentText htext []).1
        rw [List.append_nil] at hend
        have hempty : exponent.isEmpty = false := by
          obtain ⟨-, -, -⟩ := htext
          rfl
        rw [ofText?_minus negative hwhole, ofUnsigned?_fraction negative hwhole hdigits hend, halone, hempty]
        rfl
      · obtain ⟨rfl, rfl⟩ := Prod.mk.inj (Option.some.inj h)
        refine ⟨_, by simp, .fraction negative hwhole hdigits, ?_⟩
        have hvalue := ofUnsigned?_fraction negative hwhole hdigits (stops_nil _)
        rw [List.append_nil] at hvalue
        rw [ofText?_minus negative hwhole, hvalue]
        rfl
    · split at h
      · rename_i i later hexponent
        obtain ⟨exponent, rfl, htext, halone⟩ := scanExponent?_sound hexponent
        obtain ⟨rfl, rfl⟩ := Prod.mk.inj (Option.some.inj h)
        refine ⟨_, by simp, .exponent negative hwhole htext, ?_⟩
        rw [ofText?_minus negative hwhole, ofUnsigned?_exponent negative hwhole htext halone]
        rfl
      · cases h

/-- what is scanned behind the whole part decides -/
theorem scan?_whole (negative : Bool) {whole after : List Char} (hwhole : Digits whole)
    (hstop : Stops Char.isDigit after) :
    scan? (minus negative ++ (whole ++ after)) =
      match scanFraction? after with
      | some (fraction, rest) =>
        match scanExponent? rest with
        | some (exponent, rest) => some (⟨negative, whole, fraction, exponent⟩, rest)
        | none => some (⟨negative, whole, fraction, 0⟩, rest)
      | none =>
        match scanExponent? after with
        | some (exponent, rest) => some (⟨negative, whole, [], exponent⟩, rest)
        | none => none := by
  have hempty : whole.isEmpty = false := by simpa using hwhole.1
  unfold scan?
  simp only [scanSign_minus negative hwhole, digitRun_append hwhole.2 hstop, afterDigits_append hwhole.2 hstop, hempty]
  rfl

/-- Where a float starts, one is scanned: no less of the text, and no more where the text does not go on with it. -/
theorem scan?_extends {spelling : List Char} (h : FloatText spelling) (rest : List Char) :
    ∃ n left, scan? (spelling ++ rest) = some (n, left) ∧ left.length ≤ rest.length ∧
      (Stops continues rest → left = rest) := by
  have hle := length_afterDigits_le rest
  have hend (hrest : Stops continues rest) : afterDigits rest = rest := afterDigits_of_stops (stops_isDigit hrest)
  cases h with
  | @fraction negative whole digits hwhole hdigits =>
    have hpoint : Stops Char.isDigit ('.' :: (digits ++ rest)) := (stops_cons _ _ _).2 rfl
    rw [List.append_assoc, List.append_assoc, List.cons_append, scan?_whole negative hwhole hpoint,
      scanFraction?_complete hdigits]
    dsimp only
    cases hexponent : scanExponent? (afterDigits rest) with
    | none => exact ⟨_, _, rfl, hle, hend⟩
    | some result =>
      refine ⟨_, _, rfl, Nat.le_trans (length_of_scanExponent? hexponent) hle, ?_⟩
      intro hrest
      have hnone : scanExponent? rest = none := scanExponent?_exponentChars 0 hrest
      rw [hend hrest, hnone] at hexponent
      cases hexponent
  | @both negative whole digits exponent hwhole hdigits hexponent =>
    have hpoint : Stops Char.isDigit ('.' :: (digits ++ (exponent ++ rest))) := (stops_cons _ _ _).2 rfl
    obtain ⟨i, hscan⟩ := scanExponent?_complete hexponent rest
    obtain ⟨hstop, -⟩ := stops_exponentText hexponent rest
    rw [List.append_assoc, List.append_assoc, List.cons_append, List.append_assoc, scan?_whole negative hwhole hpoint,
      scanFraction?_complete hdigits, afterDigits_of_stops hstop]
    dsimp only
    rw [hscan]
    exact ⟨_, _, rfl, hle, hend⟩
  | @exponent negative whole exponent hwhole hexponent =>
    obtain ⟨i, hscan⟩ := scanExponent?_complete hexponent rest
    obtain ⟨hstop, hpoint⟩ := stops_exponentText hexponent rest
    rw [List.append_assoc, List.append_assoc, scan?_whole negative hwhole hstop, scanFraction?_none hpoint, hscan]
    exact ⟨_, _, rfl, hle, hend⟩

theorem scan?_reaches {spelling : List Char} (h : FloatText spelling) (rest : List Char) :
    ∃ n left, scan? (spelling ++ rest) = some (n, left) ∧ left.length ≤ rest.length := by
  obtain ⟨n, left, hscan, hleft, -⟩ := scan?_extends h rest
  exact ⟨n, left, hscan, hleft⟩

end Numeral

namespace Sexp

/-! ## Integers -/

theorem scanInteger?_minus (negative : Bool) {digits : List Char} (h : Digits digits) (rest : List Char) :
    scanInteger? (minus negative ++ (digits ++ rest)) =
      some (String.ofList (minus negative ++ (digits ++ digitRun rest)), afterDigits rest) := by
  unfold scanInteger?
  simp only [Numeral.scanSign_minus negative h, h.digitRun_append, h.afterDigits_append, h.isEmpty_append]
  rfl

theorem scanInteger?_sound {t : String} (h : scanInteger? s = some (t, rest)) :
    ∃ spelling value, s = spelling ++ rest ∧ IntegerText spelling value ∧ t = String.ofList spelling := by
  have hsign := Numeral.minus_scanSign s
  have hsplit := digitRun_append_afterDigits (Numeral.scanSign s).2
  unfold scanInteger? at h
  simp only at h
  split at h
  · cases h
  · rename_i hempty
    obtain ⟨rfl, rfl⟩ := Prod.mk.inj (Option.some.inj h)
    refine ⟨_, _, ?_, .intro (Numeral.scanSign s).1 (digits_digitRun (by simpa using hempty)), rfl⟩
    rw [List.append_assoc, hsplit, hsign]

/-- Where an integer starts, one is scanned, and no less of the text. -/
theorem scanInteger?_reaches {spelling : List Char} {value : Int} (h : IntegerText spelling value) (rest : List Char) :
    ∃ t left, scanInteger? (spelling ++ rest) = some (t, left) ∧ left.length ≤ rest.length := by
  obtain ⟨negative, hdigits⟩ := h
  rw [List.append_assoc, scanInteger?_minus negative hdigits]
  exact ⟨_, _, rfl, length_afterDigits_le rest⟩

/-! ## The longest number -/

/-- a float begins with an integer that ends before it -/
theorem exists_whole {spelling : List Char} (h : FloatText spelling) : ∃ negative whole tail, Digits whole ∧
    tail ≠ [] ∧ (∀ rest, Stops Char.isDigit (tail ++ rest)) ∧ spelling = minus negative ++ (whole ++ tail) := by
  cases h with
  | @fraction negative whole digits hwhole hdigits =>
    exact ⟨negative, whole, _, hwhole, List.cons_ne_nil _ _, fun rest => (stops_cons _ _ _).2 rfl, rfl⟩
  | @both negative whole digits exponent hwhole hdigits hexponent =>
    exact ⟨negative, whole, _, hwhole, List.cons_ne_nil _ _, fun rest => (stops_cons _ _ _).2 rfl, rfl⟩
  | @exponent negative whole exponent hwhole hexponent =>
    refine ⟨negative, whole, exponent, hwhole, ?_, fun rest => (Numeral.stops_exponentText hexponent rest).1, rfl⟩
    obtain ⟨-, -, -⟩ := hexponent
    exact List.cons_ne_nil _ _

/-- where a float starts, every integer is shorter -/
theorem integer_lt_float {float integer : List Char} {value : Int} (hfloat : FloatText float)
    (hinteger : IntegerText integer value) (h : integer <+: float ++ rest) : integer.length < float.length := by
  obtain ⟨later, hlater⟩ := h
  obtain ⟨t, left, hscan, hleft⟩ := scanInteger?_reaches hinteger later
  obtain ⟨negative, whole, tail, hwhole, hne, hstop, rfl⟩ := exists_whole hfloat
  -- the scan stops where the float goes on
  rw [hlater, List.append_assoc, List.append_assoc, scanInteger?_minus negative hwhole,
    afterDigits_of_stops (hstop rest)] at hscan
  have hlengths := congrArg List.length hlater
  have hpos := List.length_pos_iff.2 hne
  rw [← (Prod.mk.inj (Option.some.inj hscan)).2] at hleft
  simp only [List.length_append] at hlengths hleft ⊢
  omega

theorem longest_of_scan? {spelling : List Char} {n : Numeral} (hspelling : FloatText spelling)
    (h : Numeral.scan? (spelling ++ rest) = some (n, rest)) : Longest spelling rest := by
  rintro other (⟨value, hinteger⟩ | hfloat) hprefix
  · exact (integer_lt_float hspelling hinteger hprefix).le
  · obtain ⟨later, hlater⟩ := hprefix
    obtain ⟨m, left, hscan, hleft⟩ := Numeral.scan?_reaches hfloat later
    have hlengths := congrArg List.length hlater
    rw [hlater, h] at hscan
    rw [← (Prod.mk.inj (Option.some.inj hscan)).2] at hleft
    simp only [List.length_append] at hlengths
    omega

theorem longest_of_scanInteger? {spelling : List Char} {t : String} (hnone : Numeral.scan? (spelling ++ rest) = none)
    (h : scanInteger? (spelling ++ rest) = some (t, rest)) : Longest spelling rest := by
  rintro other (⟨value, hinteger⟩ | hfloat) ⟨later, hlater⟩
  · obtain ⟨u, left, hscan, hleft⟩ := scanInteger?_reaches hinteger later
    have hlengths := congrArg List.length hlater
    rw [hlater, h] at hscan
    rw [← (Prod.mk.inj (Option.some.inj hscan)).2] at hleft
    simp only [List.length_append] at hlengths
    omega
  · obtain ⟨n, left, hscan, -⟩ := Numeral.scan?_reaches hfloat later
    rw [hlater, hnone] at hscan
    cases hscan

/-- A number is the longest one where the text does not go on with a number. -/
theorem longest_of_stops {spelling : List Char} (h : NumberText spelling) (hrest : Stops Numeral.continues rest) :
    Longest spelling rest := by
  rcases h with ⟨value, negative, hdigits⟩ | hfloat
  · have hdigit := Numeral.stops_isDigit hrest
    have hpoint : Stops (· == '.') rest := (Numeral.stops_exponentChars 0 hrest).2
    have hnone : Numeral.scanExponent? rest = none := Numeral.scanExponent?_exponentChars 0 hrest
    apply longest_of_scanInteger?
    · rw [List.append_assoc, Numeral.scan?_whole negative hdigits hdigit, Numeral.scanFraction?_none hpoint, hnone]
    · rw [List.append_assoc, scanInteger?_minus negative hdigits, afterDigits_of_stops hdigit]
  · obtain ⟨n, left, hscan, -, hleft⟩ := Numeral.scan?_extends hfloat rest
    rw [hleft hrest] at hscan
    exact longest_of_scan? hfloat hscan

theorem Digits.concat {digits : List Char} {d : Char} (h : Digits digits) (hd : d.isDigit = true) :
    Digits (digits ++ [d]) := by
  refine ⟨by simp, ?_⟩
  rw [List.forall_mem_append]
  exact ⟨h.2, List.forall_mem_singleton.2 hd⟩

/-- a number goes on with every digit -/
theorem NumberText.concat {spelling : List Char} {d : Char} (h : NumberText spelling) (hd : d.isDigit = true) :
    NumberText (spelling ++ [d]) := by
  have hexponent {exponent : List Char} (h : ExponentText exponent) : ExponentText (exponent ++ [d]) := by
    obtain ⟨hmark, hsign, hdigits⟩ := h
    rw [List.cons_append, List.append_assoc]
    exact .intro hmark hsign (hdigits.concat hd)
  rcases h with ⟨value, negative, hdigits⟩ | hfloat
  · rw [List.append_assoc]
    exact Or.inl ⟨_, .intro negative (hdigits.concat hd)⟩
  · right
    cases hfloat with
    | fraction negative hwhole hdigits =>
      simp only [List.append_assoc, List.cons_append]
      exact .fraction negative hwhole (hdigits.concat hd)
    | both negative hwhole hdigits h =>
      simp only [List.append_assoc, List.cons_append]
      exact .both negative hwhole hdigits (hexponent h)
    | exponent negative hwhole h =>
      simp only [List.append_assoc]
      exact .exponent negative hwhole (hexponent h)

/-- after the longest number there is no digit -/
theorem Longest.stops_isDigit {spelling : List Char} (hlongest : Longest spelling rest) (h : NumberText spelling) :
    Stops Char.isDigit rest := by
  intro d hd
  by_contra hdigit
  obtain ⟨later, rfl⟩ := List.head?_eq_some_iff.1 hd
  have hlonger := hlongest _ (h.concat (Bool.eq_true_of_not_eq_false hdigit)) ⟨later, by simp⟩
  simp at hlonger

/-- only one number is the longest that starts at a place -/
theorem Longest.unique {a b r t : List Char} (ha : NumberText a) (hb : NumberText b) (hlongA : Longest a r)
    (hlongB : Longest b t) (h : a ++ r = b ++ t) : a = b ∧ r = t := by
  have hab := hlongB a ha ⟨r, h⟩
  have hba := hlongA b hb ⟨t, h.symm⟩
  exact List.append_inj h (Nat.le_antisymm hab hba)

/-- **A float is scanned where the grammar has one**, with its value. -/
theorem scan?_iff {x : Double} : (∃ n, Numeral.scan? s = some (n, rest) ∧ n.toDouble = x) ↔
    ∃ spelling, s = spelling ++ rest ∧ FloatText spelling ∧ Double.ofText? (String.ofList spelling) = some x ∧
      Longest spelling rest := by
  constructor
  · rintro ⟨n, hscan, rfl⟩
    obtain ⟨spelling, rfl, hfloat, hvalue⟩ := Numeral.scan?_sound hscan
    exact ⟨spelling, rfl, hfloat, hvalue, longest_of_scan? hfloat hscan⟩
  · rintro ⟨spelling, rfl, hfloat, hvalue, hlongest⟩
    obtain ⟨n, left, hscan, -⟩ := Numeral.scan?_reaches hfloat rest
    obtain ⟨found, hfound, hfloatFound, hvalueFound⟩ := Numeral.scan?_sound hscan
    have hlongestFound : Longest found left := longest_of_scan? hfloatFound (hfound ▸ hscan)
    obtain ⟨rfl, rfl⟩ := Longest.unique (Or.inr hfloat) (Or.inr hfloatFound) hlongest hlongestFound hfound
    exact ⟨n, hscan, Option.some.inj (hvalueFound.symm.trans hvalue)⟩

/-- **An integer is scanned where the grammar has one**: where no float starts. -/
theorem scanInteger?_iff {t : String} : (Numeral.scan? s = none ∧ scanInteger? s = some (t, rest)) ↔
    ∃ spelling value, s = spelling ++ rest ∧ IntegerText spelling value ∧ t = String.ofList spelling ∧
      Longest spelling rest := by
  constructor
  · rintro ⟨hnone, hscan⟩
    obtain ⟨spelling, value, rfl, hinteger, rfl⟩ := scanInteger?_sound hscan
    exact ⟨spelling, value, rfl, hinteger, rfl, longest_of_scanInteger? hnone hscan⟩
  · rintro ⟨spelling, value, rfl, hinteger, rfl, hlongest⟩
    have hnone : Numeral.scan? (spelling ++ rest) = none := by
      by_contra hsome
      obtain ⟨⟨n, left⟩, hscan⟩ := Option.ne_none_iff_exists'.1 hsome
      obtain ⟨float, hfound, hfloat, -⟩ := Numeral.scan?_sound hscan
      have hshort := hlongest float (Or.inr hfloat) ⟨left, hfound.symm⟩
      have hlong := integer_lt_float hfloat hinteger (hfound ▸ List.prefix_append spelling rest)
      omega
    obtain ⟨t, left, hscan, -⟩ := scanInteger?_reaches hinteger rest
    obtain ⟨found, value', hfound, hintegerFound, rfl⟩ := scanInteger?_sound hscan
    have hlongestFound : Longest found left := longest_of_scanInteger? (hfound ▸ hnone) (hfound ▸ hscan)
    obtain ⟨rfl, rfl⟩ := Longest.unique (Or.inl ⟨_, hinteger⟩) (Or.inl ⟨_, hintegerFound⟩) hlongest hlongestFound hfound
    exact ⟨hnone, hscan⟩

end Sexp

end RubySignature
