import Penumbra.Json.Numeral
import Penumbra.Proofs.Numeric.Decimals

/-!
# Numerals that are read back

A whole number is written with its digits, and a 32-bit number with a decimal from one of many
grids.  The grid of ten significant digits always has a decimal that is read back as the number, so
that there is a numeral for every finite number.

**Results**

* `Numeral.ofDigits_digitsOf`: the digits of a number spell it.
* `Numeral.Legal`: numerals of the grammar, without needless zeros in front.
* `Numeral.toNatural?_ofNatural`: whole numbers are read back.
* `Numeral.isNumber_of_toSingle?`: a numeral is read as a number or as infinity.
* `Numeral.exists_ofSingle?`: every finite 32-bit number has a numeral, which is read back as it.
-/

namespace Penumbra.Numeral

section Digits

theorem ofDigits_concat (ds : List Digit) (d : Digit) :
    ofDigits (ds ++ [d]) = ofDigits ds * 10 + d.val :=
  List.foldl_concat _ _ _ _

theorem ofDigits_append (ds es : List Digit) :
    ofDigits (ds ++ es) = ofDigits ds * 10 ^ es.length + ofDigits es := by
  induction es using List.reverseRecOn with
  | nil => simp [ofDigits]
  | append_singleton es d ih =>
      rw [← List.append_assoc, ofDigits_concat, ofDigits_concat, ih, List.length_append,
        List.length_singleton, pow_succ]
      ring

theorem ofDigits_replicate_zero (k : Nat) : ofDigits (List.replicate k Digit.zero) = 0 := by
  induction k with
  | zero => rfl
  | succ k ih =>
      rw [List.replicate_succ', ofDigits_concat, ih]
      rfl

theorem ofDigits_lt (ds : List Digit) : ofDigits ds < 10 ^ ds.length := by
  induction ds using List.reverseRecOn with
  | nil => exact Nat.one_pos
  | append_singleton ds d ih =>
      have hd := d.isLt
      rw [ofDigits_concat, List.length_append, List.length_singleton, pow_succ]
      omega

/-- The digits of a number spell it. -/
@[simp] theorem ofDigits_digitsOf (n : Nat) : ofDigits (digitsOf n) = n := by
  induction n using digitsOf.induct with
  | case1 n hlt =>
      rw [digitsOf, if_pos hlt]
      simp [ofDigits, Digit.ofNat, Nat.mod_eq_of_lt hlt]
  | case2 n hge ih =>
      rw [digitsOf, if_neg hge, ofDigits_concat, ih]
      simp only [Digit.ofNat]
      omega

/-- Digits without a zero in front, unless it is the only one. -/
def Unpadded (ds : List Digit) : Prop :=
  ds = [Digit.zero] ∨ ∃ d es, ds = d :: es ∧ d ≠ Digit.zero

theorem exists_digitsOf {n : Nat} (hn : 0 < n) : ∃ d es, digitsOf n = d :: es ∧ d ≠ Digit.zero := by
  induction n using digitsOf.induct with
  | case1 n hlt =>
      refine ⟨Digit.ofNat n, [], by rw [digitsOf, if_pos hlt], fun hzero => ?_⟩
      have hvalue : n % 10 = 0 := congrArg Fin.val hzero
      omega
  | case2 n hge ih =>
      obtain ⟨d, es, heq, hd⟩ := ih (by omega)
      exact ⟨d, es ++ [Digit.ofNat n], by rw [digitsOf, if_neg hge, heq, List.cons_append], hd⟩

theorem unpadded_digitsOf (n : Nat) : Unpadded (digitsOf n) := by
  rcases Nat.eq_zero_or_pos n with rfl | hn
  · exact Or.inl (by rw [digitsOf]; rfl)
  · exact Or.inr (exists_digitsOf hn)

end Digits

section Reading

/-- Numerals of the grammar: no needless zero stands in front. -/
def Legal (n : Numeral) : Prop := Unpadded n.whole

theorem legal_ofNatural (n : Nat) : (ofNatural n).Legal := unpadded_digitsOf n

/-- Whole numbers are read back. -/
theorem toNatural?_ofNatural {n : Nat} (h : n < wordBound) : (ofNatural n).toNatural? = some n := by
  simp [toNatural?, ofNatural, isWhole, h]

theorem le_foldl_digits (ds : List Digit) (v : Nat) :
    v ≤ ds.foldl (fun n d => n * 10 + d.val) v := by
  induction ds generalizing v with
  | nil => exact Nat.le_refl v
  | cons d ds ih =>
      have hstep : v ≤ v * 10 + d.val := by
        omega
      exact hstep.trans (ih _)

variable {v : Nat} {e : Int}

/-- Digits before the point that fit into 64 bits are all collected. -/
theorem foldl_whole (ds : List Digit)
    (h : ds.foldl (fun n d => n * 10 + d.val) v < wordBound) :
    ds.foldl Collected.whole ⟨v, e, true⟩ = ⟨ds.foldl (fun n d => n * 10 + d.val) v, e, true⟩ := by
  induction ds generalizing v with
  | nil => rfl
  | cons d ds ih =>
      have hfits : v * 10 + d.val < wordBound := (le_foldl_digits ds _).trans_lt h
      have hstep : Collected.whole ⟨v, e, true⟩ d = ⟨v * 10 + d.val, e, true⟩ := by
        simp [Collected.whole, hfits]
      rw [List.foldl_cons, List.foldl_cons, hstep]
      exact ih h

/-- So are digits behind the point, and each moves it by a place. -/
theorem foldl_fraction (ds : List Digit)
    (h : ds.foldl (fun n d => n * 10 + d.val) v < wordBound) :
    ds.foldl Collected.fraction ⟨v, e, true⟩ =
      ⟨ds.foldl (fun n d => n * 10 + d.val) v, e - ds.length, true⟩ := by
  induction ds generalizing v e with
  | nil => simp
  | cons d ds ih =>
      have hfits : v * 10 + d.val < wordBound := (le_foldl_digits ds _).trans_lt h
      have hstep : Collected.fraction ⟨v, e, true⟩ d = ⟨v * 10 + d.val, e - 1, true⟩ := by
        simp [Collected.fraction, hfits]
      rw [List.foldl_cons, List.foldl_cons, hstep, ih h, List.length_cons]
      simp only [Collected.mk.injEq, and_true, true_and]
      omega

/-- The decimal of a numeral whose digits fit into 64 bits. -/
theorem toDecimal_eq {n : Numeral} (h : ofDigits (n.whole ++ n.fraction) < wordBound) :
    n.toDecimal =
      ⟨ofDigits (n.whole ++ n.fraction), n.exponent.getD 0 - n.fraction.length⟩ := by
  have hsplit : ofDigits (n.whole ++ n.fraction) =
      n.fraction.foldl (fun n d => n * 10 + d.val) (ofDigits n.whole) := List.foldl_append
  rw [hsplit] at h ⊢
  have hwhole : ofDigits n.whole < wordBound := (le_foldl_digits n.fraction _).trans_lt h
  rw [toDecimal, foldl_whole n.whole hwhole]
  simp only
  rw [← ofDigits, foldl_fraction n.fraction h]
  simp only [Decimal.mk.injEq, true_and]
  omega

/-- What a numeral with a point or a power of ten is read as. -/
theorem toSingle?_eq {n : Numeral} (hwhole : n.isWhole = false)
    (h : ofDigits (n.whole ++ n.fraction) < wordBound) :
    n.toSingle? = Decimal.toSingle? n.negative
      ⟨ofDigits (n.whole ++ n.fraction), n.exponent.getD 0 - n.fraction.length⟩ := by
  have hword : n.isWord = false := by
    simp [isWord, hwhole]
  rw [toSingle?, hword, if_neg Bool.false_ne_true, toDecimal_eq h]

/-- What a numeral is read as is a number or infinite. -/
theorem isNumber_of_toSingle? {n : Numeral} {x : Float32} (h : n.toSingle? = some x) :
    Scalar.isNumber x = true := by
  rw [toSingle?] at h
  split_ifs at h
  · obtain rfl := Option.some.inj h
    exact Binary32.isNumber_nearest _ _ Nat.one_pos
  · rw [Decimal.toSingle?, Option.map_eq_some_iff] at h
    obtain ⟨⟨m, e⟩, -, rfl⟩ := h
    exact Binary32.isNumber_nearest _ _ (BinaryFormat.scaled_swapped Nat.one_pos m e).1

end Reading

section Writing

variable {n : Nat} {j : Int} {negative : Bool}

/-- Whatever the layout, a decimal other than zero is written without needless zeros in front. -/
theorem legal_ofDecimal (layout : Layout) (negative : Bool) (hn : 0 < n) (j : Int) :
    (ofDecimal layout negative ⟨n, j⟩).Legal := by
  obtain ⟨d, es, hdigits, hd⟩ := exists_digitsOf hn
  simp only [ofDecimal, hdigits, Legal]
  split_ifs
  · exact Or.inr ⟨d, [], rfl, hd⟩
  · exact Or.inr ⟨d, _, rfl, hd⟩
  · exact Or.inr ⟨d, _, rfl, hd⟩
  · exact Or.inl rfl

/--
A decimal whose digits fit into 64 bits is read as it is, or, when it is written as a whole number
with a zero behind the point, with that zero as its last digit.
-/
theorem toSingle?_ofDecimal (negative : Bool) (hn : n < wordBound) (j : Int) :
    (ofDecimal plainLayout negative ⟨n, j⟩).toSingle? = Decimal.toSingle? negative ⟨n, j⟩ ∨
      0 ≤ j ∧ n * 10 ^ (j.toNat + 1) < wordBound ∧
        (ofDecimal plainLayout negative ⟨n, j⟩).toSingle? =
          Decimal.toSingle? negative ⟨n * 10 ^ (j.toNat + 1), -1⟩ := by
  have hvalue := ofDigits_digitsOf n
  have hlength : 0 < (digitsOf n).length := by
    rcases unpadded_digitsOf n with h | ⟨d, es, h, -⟩ <;> simp [h]
  have hdivided : ∀ k, ofDigits ((digitsOf n).take k ++ (digitsOf n).drop k) = n := fun k => by
    rw [List.take_append_drop, hvalue]
  -- The digits before and behind the point spell the same number in each of the four layouts.
  simp only [ofDecimal]
  split_ifs with hfar hwhole hmixed
  · left
    rw [toSingle?_eq (by simp [isWhole]) (by rwa [hdivided])]
    simp only [hdivided, Option.getD_some, List.length_drop]
    congr 2
    omega
  · right
    have hzeros : ofDigits (digitsOf n ++ List.replicate j.toNat Digit.zero ++ [Digit.zero]) =
        n * 10 ^ (j.toNat + 1) := by
      rw [List.append_assoc, ← List.replicate_succ', ofDigits_append, ofDigits_replicate_zero,
        List.length_replicate, hvalue, Nat.add_zero]
    have hsize : n * 10 ^ (j.toNat + 1) < wordBound := by
      have hplaces : (digitsOf n).length + (j.toNat + 1) ≤ 14 := by
        simp only [plainLayout, not_or, not_lt] at hfar
        omega
      calc n * 10 ^ (j.toNat + 1)
          < 10 ^ (digitsOf n).length * 10 ^ (j.toNat + 1) := by
            gcongr
            exact hvalue.symm.trans_lt (ofDigits_lt _)
        _ = 10 ^ ((digitsOf n).length + (j.toNat + 1)) := (pow_add _ _ _).symm
        _ ≤ 10 ^ 14 := Nat.pow_le_pow_right (by decide) hplaces
        _ < wordBound := by
            decide
    refine ⟨hwhole, hsize, ?_⟩
    rw [toSingle?_eq (by simp [isWhole]) (by rwa [hzeros]), hzeros]
    rfl
  · left
    have hpoint : (digitsOf n).drop ((j + ((digitsOf n).length - 1 : Nat)).toNat + 1) ≠ [] := by
      rw [Ne, List.drop_eq_nil_iff]
      omega
    rw [toSingle?_eq (by simp [isWhole, hpoint]) (by rwa [hdivided])]
    simp only [hdivided, Option.getD_none, List.length_drop]
    congr 2
    omega
  · left
    have hzeros : ∀ k, ofDigits ([Digit.zero] ++ (List.replicate k Digit.zero ++ digitsOf n)) = n :=
      fun k => by
        rw [← List.append_assoc, List.singleton_append, ← List.replicate_succ, ofDigits_append,
          ofDigits_replicate_zero, hvalue, Nat.zero_mul, Nat.zero_add]
    have hpoint : digitsOf n ≠ [] := List.ne_nil_of_length_pos hlength
    rw [toSingle?_eq (by simp [isWhole, hpoint]) (by rwa [hzeros])]
    simp only [hzeros, Option.getD_none, List.length_append, List.length_replicate]
    congr 2
    omega

end Writing

section Grids

variable {num den m : Nat} {e j : Int} {x : Float32}

/-- The two points of a grid around a quotient, in one of the two orders. -/
theorem exists_neighbours (num den : Nat) (j : Int) :
    ∃ n : Nat, (n * 10 ^ j : ℚ) ≤ num / den ∧ (num / den : ℚ) < (n + 1) * 10 ^ j ∧
      (neighbours num den j = [⟨n, j⟩, ⟨n + 1, j⟩] ∨ neighbours num den j = [⟨n + 1, j⟩, ⟨n, j⟩]) := by
  have hpow : (0 : ℚ) < 10 ^ j := zpow_pos (by norm_num) j
  obtain ⟨a, b, hscaled, heq⟩ : ∃ a b : Nat, (a / b : ℚ) = num / den / 10 ^ j ∧
      neighbours num den j = if roundDiv a b = a / b then [⟨a / b, j⟩, ⟨a / b + 1, j⟩]
        else [⟨a / b + 1, j⟩, ⟨a / b, j⟩] := by
    cases j with
    | ofNat k =>
        refine ⟨num, den * Nat.pow 10 k, ?_, rfl⟩
        rw [Int.ofNat_eq_natCast, zpow_natCast, div_div, Nat.pow_eq]
        push_cast
        rfl
    | negSucc k =>
        refine ⟨num * Nat.pow 10 (k + 1), den, ?_, rfl⟩
        rw [zpow_negSucc, div_inv_eq_mul, Nat.pow_eq]
        push_cast
        ring
  have hnonneg : (0 : ℚ) ≤ a / b := by
    positivity
  refine ⟨a / b, ?_, ?_, ?_⟩
  · rw [← le_div_iff₀ hpow, ← hscaled, ← Nat.floor_div_eq_div (K := ℚ) a b]
    exact Nat.floor_le hnonneg
  · rw [← div_lt_iff₀ hpow, ← hscaled, ← Nat.floor_div_eq_div (K := ℚ) a b]
    exact Nat.lt_floor_add_one _
  · rw [heq]
    exact ite_eq_or_eq _ _ _

theorem exponent_of_mem_neighbours {d : Decimal} (h : d ∈ neighbours num den j) :
    d.exponent = j := by
  obtain ⟨n, -, -, heq⟩ := exists_neighbours num den j
  rcases heq with heq | heq <;> rw [heq] at h <;>
    rcases List.mem_pair.mp h with rfl | rfl <;> rfl

theorem mem_gridExponents_iff : j ∈ gridExponents ↔ -60 ≤ j ∧ j ≤ 39 := by
  simp only [gridExponents, List.mem_map, List.mem_range]
  constructor
  · rintro ⟨k, hk, rfl⟩
    omega
  · intro h
    exact ⟨(39 - j).toNat, by omega, by omega⟩

/-- However a decimal without a digit other than zero is laid out, it is read as a zero. -/
theorem toSingle?_ofDecimal_zero (negative : Bool) (hlow : -100 ≤ j) :
    (ofDecimal plainLayout negative ⟨0, j⟩).toSingle? =
      some (Binary32.ofMagnitude negative (some (0, -149))) := by
  rcases toSingle?_ofDecimal negative (by decide : 0 < wordBound) j with h | ⟨-, -, h⟩
  · rw [h, Decimal.toSingle?_zero negative hlow]
  · rw [h, Nat.zero_mul, Decimal.toSingle?_zero negative (by decide)]

/-- However a decimal is laid out, it is read as a number that it agrees with to nine digits. -/
theorem toSingle?_ofDecimal_of_close {n : Nat} (negative : Bool) (hlegal : Significand m e)
    (hm : 0 < m) (hn : 0 < n) (hlt : n < wordBound) (hlow : -100 ≤ j) (hhigh : j ≤ 100)
    (hbelow : (n * 10 ^ j : ℚ) ≤ m * 2 ^ e)
    (habove : (m * 2 ^ e : ℚ) ≤ n * 10 ^ j * (1 + 1 / 10 ^ 9)) :
    (ofDecimal plainLayout negative ⟨n, j⟩).toSingle? =
      some (Binary32.ofMagnitude negative (some (m, e))) := by
  rcases toSingle?_ofDecimal negative hlt j with h | ⟨hj, hsize, h⟩
  · rw [h]
    exact Decimal.toSingle?_of_close negative hlegal hm hn hlt hlow hhigh hbelow habove
  · have hvalue : ((n * 10 ^ (j.toNat + 1) : Nat) : ℚ) * 10 ^ (-1 : Int) = n * 10 ^ j := by
      obtain ⟨k, rfl⟩ := Int.eq_ofNat_of_zero_le hj
      rw [Int.toNat_natCast, zpow_natCast, zpow_neg_one, pow_succ]
      push_cast
      field_simp
    rw [h]
    exact Decimal.toSingle?_of_close negative hlegal hm (by positivity) hsize (by decide) (by decide)
      (by rwa [hvalue]) (by rwa [hvalue])

/-- The decimal with ten significant digits just below a number is read as the number. -/
theorem exists_decimal (hlegal : Significand m e) (hm : 0 < m)
    (hratio : (num / den : ℚ) = m * 2 ^ e) (negative : Bool) :
    ∃ j ∈ gridExponents, ∃ d ∈ neighbours num den j,
      (ofDecimal plainLayout negative d).toSingle? =
        some (Binary32.ofMagnitude negative (some (m, e))) := by
  -- `t` is the place of the first digit; nine places below it, ten digits are kept.
  have hten : (1 : ℚ) < 10 := by
    norm_num
  obtain ⟨t, hlow, hhigh⟩ := exists_mem_Ico_zpow (magnitude_pos hm e) hten
  have hsmallest : (10 : ℚ) ^ (-45 : Int) < m * 2 ^ e := by
    calc (10 : ℚ) ^ (-45 : Int) < 1 * 2 ^ (-149 : Int) := by
          norm_num
      _ ≤ m * 2 ^ e := by
          gcongr
          · exact_mod_cast hm
          · exact one_le_two
          · exact hlegal.low
  have hlargest : (m * 2 ^ e : ℚ) < 10 ^ (39 : Int) := hlegal.lt_limit.trans (by norm_num)
  have hfirst : -46 < t := by
    have := (zpow_lt_zpow_iff_right₀ hten).mp (hsmallest.trans hhigh)
    omega
  have hlast : t < 39 := (zpow_lt_zpow_iff_right₀ hten).mp (hlow.trans_lt hlargest)
  obtain ⟨n, hbelow, habove, hmem⟩ := exists_neighbours num den (t - 9)
  rw [hratio] at hbelow habove
  have hpow : (0 : ℚ) < 10 ^ (t - 9) := zpow_pos (by norm_num) _
  have hplaces : ∀ k : Nat, (10 : ℚ) ^ (t - 9 + k) = (10 ^ k : Nat) * 10 ^ (t - 9) := fun k => by
    rw [zpow_add₀ (by norm_num), zpow_natCast, mul_comm, Nat.cast_pow, Nat.cast_ofNat]
  have hdigits : 10 ^ 9 ≤ n := by
    have hsize : ((10 ^ 9 : Nat) : ℚ) * 10 ^ (t - 9) < ((n + 1 : Nat) : ℚ) * 10 ^ (t - 9) := by
      rw [← hplaces 9, Nat.cast_ofNat, sub_add_cancel, Nat.cast_add_one]
      exact hlow.trans_lt habove
    exact Nat.le_of_lt_succ (by exact_mod_cast lt_of_mul_lt_mul_right hsize hpow.le)
  have hfits : n < 10 ^ 10 := by
    have hsize : (n : ℚ) * 10 ^ (t - 9) < ((10 ^ 10 : Nat) : ℚ) * 10 ^ (t - 9) := by
      have hlast : t - 9 + (10 : Nat) = t + 1 := by
        omega
      rw [← hplaces 10, hlast]
      exact hbelow.trans_lt hhigh
    exact_mod_cast lt_of_mul_lt_mul_right hsize hpow.le
  refine ⟨t - 9, mem_gridExponents_iff.mpr (by omega), ⟨n, t - 9⟩, ?_, ?_⟩
  · rcases hmem with h | h <;> simp [h]
  · refine toSingle?_ofDecimal_of_close negative hlegal hm (by omega) ?_ (by omega) (by omega)
      hbelow ?_
    · unfold wordBound
      omega
    · have hunit : (10 ^ 9 : ℚ) * 10 ^ (t - 9) ≤ n * 10 ^ (t - 9) := by
        gcongr
        exact_mod_cast hdigits
      linarith

theorem legal_zero (negative : Bool) : (ofDecimal plainLayout negative ⟨0, 0⟩).Legal := by
  have hdigits : digitsOf 0 = [Digit.zero] := by
    rw [digitsOf]
    rfl
  rw [ofDecimal, hdigits]
  exact Or.inl rfl

/-- A numeral that is read as a number other than zero has a digit other than zero. -/
theorem legal_of_read {d : Decimal} (negative : Bool) (hm : 0 < m)
    (h : Binary32.magnitude? x = some (m, e)) (hlow : -100 ≤ d.exponent)
    (hread : (ofDecimal plainLayout negative d).toSingle? = some x) :
    (ofDecimal plainLayout negative d).Legal := by
  obtain ⟨n, j⟩ := d
  rcases Nat.eq_zero_or_pos n with rfl | hn
  · have hzero : ∀ s, Binary32.magnitude? (Binary32.ofMagnitude s (some (0, -149))) =
        some (0, -149) := by
      decide +kernel
    rw [toSingle?_ofDecimal_zero negative hlow, Option.some.injEq] at hread
    rw [← hread, hzero, Option.some.injEq, Prod.mk.injEq] at h
    omega
  · exact legal_ofDecimal plainLayout negative hn j

/-- Every finite 32-bit number has a numeral, which is read back as it. -/
theorem exists_ofSingle? (h : Binary32.magnitude? x = some (m, e)) :
    ∃ n, ofSingle? x = some n ∧ n.toSingle? = some x ∧ n.Legal := by
  have hx := Binary32.ofMagnitude_magnitude? h
  have hlegal := Binary32.significand_of_magnitude? h
  rcases Nat.eq_zero_or_pos m with rfl | hm
  · obtain rfl : e = -149 := hlegal.leading.resolve_right (by decide)
    refine ⟨ofDecimal plainLayout (Binary32.isNegative x) ⟨0, 0⟩, ?_, ?_, legal_zero _⟩
    · simp [ofSingle?, h]
    · rw [toSingle?_ofDecimal_zero _ (by decide), hx]
  · obtain ⟨hden, hratio⟩ := BinaryFormat.scaled_ratio m Nat.one_pos (-e)
    rw [zpow_neg, div_inv_eq_mul, Nat.cast_one, div_one] at hratio
    obtain ⟨j, hj, d, hd, hread⟩ := exists_decimal hlegal hm hratio (Binary32.isNegative x)
    have hsearch : (ofSingle? x).isSome = true := by
      simp only [ofSingle?, h, Option.bind_eq_bind, Option.bind_some, if_neg hm.ne',
        List.findSome?_isSome_iff, List.find?_isSome, List.mem_map, decide_eq_true_eq]
      exact ⟨j, hj, _, ⟨d, hd, rfl⟩, hread.trans (congrArg some hx)⟩
    obtain ⟨n, hn⟩ := Option.isSome_iff_exists.mp hsearch
    have hfound := hn
    simp only [ofSingle?, h, Option.bind_eq_bind, Option.bind_some, if_neg hm.ne'] at hfound
    obtain ⟨i, hi, hfind⟩ := List.exists_of_findSome?_eq_some hfound
    have hreads : n.toSingle? = some x := by
      simpa using List.find?_some hfind
    obtain ⟨d', hd', rfl⟩ := List.mem_map.mp (List.mem_of_find?_eq_some hfind)
    have hplace := exponent_of_mem_neighbours hd'
    have hgrid := mem_gridExponents_iff.mp hi
    exact ⟨_, hn, hreads, legal_of_read _ hm h (by omega) hreads⟩

end Grids

end Penumbra.Numeral
