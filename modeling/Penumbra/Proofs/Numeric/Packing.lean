import Mathlib
import Penumbra.Proofs.Numeric.Nearest

/-!
# Rounding of machine results

A result of machine arithmetic is a significand with an exponent, and the two bits after the
significand.  It is shifted to the exponent at which the format keeps all its digits, rounded there,
and packed into bits; what these bits are taken apart into again is a number next to the exact
result.

**Results**

* `Represents`, `Represents.shiftRight`: what a significand with the bits after it stands for.
* `nearest_of_represents`: shifting and rounding gives a significand next to the rational.
* `Rounds`, `rounds_roundWithAccuracy`, `rounds_normalize`: what is stored is next to the rational.
-/

namespace Penumbra

open Float.Model
open BinaryFormat (two_zpow_pos)

namespace UnpackedFloat

/-- A rational with a sign. -/
def withSign : UnpackedFloat.Sign → ℚ → ℚ
  | .positive, q => q
  | .negative, q => -q

section Represents

open UnpackedFloat (ExtendedMantissa Accuracy)

/-- A significand with the bits after it stands for a rational: the first bit tells of a half, and the
second one of anything beyond. -/
def Represents (em : UnpackedFloat.ExtendedMantissa) (x : ℚ) : Prop :=
  match em.roundBit, em.stickyBit with
  | false, false => x = em.mantissa
  | false, true => em.mantissa < x ∧ x < em.mantissa + 1 / 2
  | true, false => x = em.mantissa + 1 / 2
  | true, true => em.mantissa + 1 / 2 < x ∧ x < em.mantissa + 1

namespace Represents

variable {em : UnpackedFloat.ExtendedMantissa} {x : ℚ}

theorem mantissa_le (h : Represents em x) : (em.mantissa : ℚ) ≤ x := by
  rcases em with ⟨m, _ | _, _ | _⟩ <;> simp only [Represents] at h ⊢ <;> linarith

theorem lt_succ (h : Represents em x) : x < em.mantissa + 1 := by
  rcases em with ⟨m, _ | _, _ | _⟩ <;> simp only [Represents] at h ⊢ <;> linarith

theorem shiftRightOne (h : Represents em x) : Represents em.shiftRightOne (x / 2) := by
  have hsplit : (em.mantissa : ℚ) = 2 * (em.mantissa / 2 : Nat) + (em.mantissa % 2 : Nat) := by
    exact_mod_cast (Nat.div_add_mod em.mantissa 2).symm
  rcases em with ⟨m, _ | _, _ | _⟩ <;> rcases Nat.mod_two_eq_zero_or_one m with hlast | hlast <;>
    simp [Represents, UnpackedFloat.ExtendedMantissa.shiftRightOne, hlast] at h hsplit ⊢ <;>
    (try constructor) <;> linarith

theorem shiftRight (h : Represents em x) (k : Nat) : Represents (em >>> k) (x / 2 ^ k) := by
  induction k with
  | zero =>
      rw [pow_zero, div_one]
      exact h
  | succ k ih =>
      have hshift : em >>> (k + 1) = (em >>> k).shiftRightOne := rfl
      rw [hshift, pow_succ, ← div_div]
      exact ih.shiftRightOne

/-- The rounded significand is at most a half away. -/
theorem near (h : Represents em x) : |(em.roundedMantissa : ℚ) - x| ≤ 1 / 2 := by
  rcases em with ⟨m, _ | _, _ | _⟩
  · change x = m at h
    change |(m : ℚ) - x| ≤ 1 / 2
    rw [h]
    norm_num
  · change (m : ℚ) < x ∧ x < m + 1 / 2 at h
    change |(m : ℚ) - x| ≤ 1 / 2
    rw [abs_le]
    constructor <;> linarith
  · change x = m + 1 / 2 at h
    change |((m + m % 2 : Nat) : ℚ) - x| ≤ 1 / 2
    rcases Nat.mod_two_eq_zero_or_one m with hlast | hlast <;> rw [h, hlast] <;> norm_num
  · change (m : ℚ) + 1 / 2 < x ∧ x < m + 1 at h
    change |((m + 1 : Nat) : ℚ) - x| ≤ 1 / 2
    rw [Nat.cast_succ, abs_le]
    constructor <;> linarith

end Represents

theorem represents_exact (m : Nat) : Represents (.ofMantissaAndAccuracy m .exact) m := rfl

theorem ofMantissaAndAccuracy_mantissa (m : Nat) (acc : UnpackedFloat.Accuracy) :
    (UnpackedFloat.ExtendedMantissa.ofMantissaAndAccuracy m acc).mantissa = m := by
  rcases acc with _ | (_ | _ | _) <;> rfl

end Represents

section Rounding

variable {m : Nat} {e : Int} {acc : UnpackedFloat.Accuracy} {q : ℚ}

/-- The exponent at which the format keeps all its digits. -/
def keptExponent (m : Nat) (e : Int) : Int := max ((m.log2 : Int) + 1 + e - 24) (-149)

/-- The significand after the shift to that exponent. -/
def keptSignificand (m : Nat) (e : Int) (acc : UnpackedFloat.Accuracy) : Nat :=
  (UnpackedFloat.ExtendedMantissa.ofMantissaAndAccuracy m acc >>>
    (keptExponent m e - e).toNat).roundedMantissa

/-- Digits are only ever dropped, so that no digit of the result is made up. -/
theorem le_keptExponent (h : e ≤ -149 ∨ 8388608 ≤ m) : e ≤ keptExponent m e := by
  rw [keptExponent]
  rcases h with hlow | hlong
  · omega
  · have hlog : 23 ≤ m.log2 := (Nat.le_log2 (by omega)).mpr hlong
    omega

theorem nearest_of_represents (h : e ≤ -149 ∨ 8388608 ≤ m)
    (hrep : Represents (.ofMantissaAndAccuracy m acc) (q / 2 ^ e)) :
    Nearest q (keptSignificand m e acc) (keptExponent m e) where
  low := le_max_right _ _
  lt := by
    have hbelow : q < (m + 1) * 2 ^ e := by
      have hlt := hrep.lt_succ
      rwa [ofMantissaAndAccuracy_mantissa, div_lt_iff₀ (two_zpow_pos e)] at hlt
    have hdigits : (m : ℚ) + 1 ≤ 2 ^ ((m.log2 : Int) + 1) := by
      exact_mod_cast @Nat.lt_log2_self m
    calc q < (m + 1) * 2 ^ e := hbelow
      _ ≤ 2 ^ ((m.log2 : Int) + 1) * 2 ^ e := mul_le_mul_of_nonneg_right hdigits (two_zpow_pos e).le
      _ = 2 ^ ((m.log2 : Int) + 1 + e) := (zpow_add₀ two_ne_zero _ _).symm
      _ ≤ 2 ^ (BinaryFormat.single.digits + keptExponent m e : Int) := by
          refine zpow_le_zpow_right₀ one_le_two ?_
          simp only [keptExponent, BinaryFormat.single]
          omega
  leading := by
    rcases eq_or_ne (keptExponent m e) (-149) with hlow | hhigh
    · exact Or.inl hlow
    · have hexponent : keptExponent m e = (m.log2 : Int) + 1 + e - 24 :=
        (max_choice _ _).resolve_right hhigh
      have hlow : -149 ≤ keptExponent m e := le_max_right _ _
      have hm : m ≠ 0 := by
        rintro rfl
        rw [Nat.log2_zero] at hexponent
        omega
      have hdigits : (2 : ℚ) ^ (m.log2 : Int) ≤ m := by
        exact_mod_cast Nat.log2_self_le hm
      have habove : (m : ℚ) * 2 ^ e ≤ q := by
        have hle := hrep.mantissa_le
        rwa [ofMantissaAndAccuracy_mantissa, le_div_iff₀ (two_zpow_pos e)] at hle
      refine Or.inr ?_
      calc (2 : ℚ) ^ (BinaryFormat.single.digits + keptExponent m e - 1 : Int)
          = 2 ^ ((m.log2 : Int) + e) := by
            rw [hexponent, BinaryFormat.single]
            congr 1
            dsimp only
            omega
        _ = 2 ^ (m.log2 : Int) * 2 ^ e := zpow_add₀ two_ne_zero _ _
        _ ≤ m * 2 ^ e := mul_le_mul_of_nonneg_right hdigits (two_zpow_pos e).le
        _ ≤ q := habove
  near := by
    have hshift : q / 2 ^ keptExponent m e = q / 2 ^ e / 2 ^ (keptExponent m e - e).toNat := by
      rw [div_div, ← zpow_natCast, ← zpow_add₀ two_ne_zero, Int.toNat_of_nonneg]
      · congr 2
        omega
      · exact sub_nonneg.mpr (le_keptExponent h)
    rw [hshift]
    exact (hrep.shiftRight _).near

/-- A significand with as many digits as it can have at some exponent, whatever that is. -/
structure Normalized (m : Nat) (e : Int) : Prop where
  lt : m < 16777216
  low : -149 ≤ e
  leading : e = -149 ∨ 8388608 ≤ m

theorem Normalized.significand (h : Normalized m e) (he : e ≤ 104) : Significand m e :=
  ⟨h.lt, h.low, he, h.leading⟩

theorem keptExponent_of_lt {M : Nat} {E : Int} (hM : M < 16777216) (hE : -149 ≤ E) :
    keptExponent M E ≤ E := by
  rw [keptExponent]
  rcases eq_or_ne M 0 with rfl | hne
  · rw [Nat.log2_zero]
    omega
  · have hlog : M.log2 < 24 := (Nat.log2_lt hne).mpr hM
    omega

/-- The number with a sign and with the digits that are left. -/
def settled (s : UnpackedFloat.Sign) (digits : UnpackedFloat.ExtendedMantissa × Int) :
    UnpackedFloat :=
  if h : digits.1.mantissa = 0 then .zero s
  else .finite s digits.1.mantissa digits.2 (Nat.pos_of_ne_zero h)

theorem roundWithAccuracy_eq (s : UnpackedFloat.Sign) (h : e ≤ -149 ∨ 8388608 ≤ m) :
    UnpackedFloat.roundWithAccuracy .binary32 s m e acc =
      settled s (UnpackedFloat.shiftToExponent (keptSignificand m e acc) (keptExponent m e) .exact
        (keptExponent (keptSignificand m e acc) (keptExponent m e))) := by
  have hfirst : e + ((keptExponent m e - e).toNat : Int) = keptExponent m e := by
    rw [Int.toNat_of_nonneg (sub_nonneg.mpr (le_keptExponent h))]
    exact add_sub_cancel e _
  have hdefinition : UnpackedFloat.roundWithAccuracy .binary32 s m e acc =
      settled s (UnpackedFloat.shiftToExponent (keptSignificand m e acc)
        (e + ((keptExponent m e - e).toNat : Int)) .exact
        (keptExponent (keptSignificand m e acc) (e + ((keptExponent m e - e).toNat : Int)))) := rfl
  rw [hdefinition, hfirst]

/-- A rounded result is zero or has as many digits as it can have. -/
theorem settled_cases (s : UnpackedFloat.Sign) {M : Nat} {E : Int} (h : Nearest q M E) :
    (M = 0 ∧ settled s (UnpackedFloat.shiftToExponent M E .exact (keptExponent M E)) = .zero s) ∨
      ∃ m' e' hm',
        settled s (UnpackedFloat.shiftToExponent M E .exact (keptExponent M E)) =
          .finite s m' e' hm' ∧
        Normalized m' e' ∧ (m' : ℚ) * 2 ^ e' = M * 2 ^ E := by
  have hlow : -149 ≤ E := h.low
  rcases h.le_digits.lt_or_eq with hlt | rfl
  · have hshift : (keptExponent M E - E).toNat = 0 :=
      Int.toNat_of_nonpos (sub_nonpos.mpr (keptExponent_of_lt hlt hlow))
    have hdigits : UnpackedFloat.shiftToExponent M E .exact (keptExponent M E) =
        (.ofMantissaAndAccuracy M .exact, E) := by
      rw [UnpackedFloat.shiftToExponent, hshift]
      exact congrArg (Prod.mk _) (add_zero E)
    rw [hdigits]
    rcases Nat.eq_zero_or_pos M with rfl | hpos
    · exact Or.inl ⟨rfl, rfl⟩
    · refine Or.inr ⟨M, E, hpos, dif_neg hpos.ne', ⟨hlt, hlow, ?_⟩, rfl⟩
      exact or_iff_not_imp_left.mpr fun he => h.natCast_le (h.digits_le he)
  · have hshift : keptExponent 16777216 E = E + 1 := by
      have hlog : Nat.log2 16777216 = 24 := rfl
      rw [keptExponent, hlog]
      omega
    have hdigits : UnpackedFloat.shiftToExponent 16777216 E .exact (keptExponent 16777216 E) =
        (⟨8388608, false, false⟩, E + 1) := by
      rw [hshift, UnpackedFloat.shiftToExponent, add_sub_cancel_left]
      rfl
    rw [hdigits]
    refine Or.inr ⟨8388608, E + 1, by decide, rfl, ⟨by decide, by omega, Or.inr le_rfl⟩, ?_⟩
    rw [zpow_add_one₀ two_ne_zero]
    push_cast
    ring

end Rounding

section Packing

variable {s : UnpackedFloat.Sign} {m : Nat} {e : Int}

/-- What is taken apart into the parts that bits were put together from. -/
theorem unpack_packComponents (s : UnpackedFloat.Sign) (x : BitVec 8) (y : BitVec 23) :
    UnpackedFloat.unpack .binary32 (UnpackedFloat.packComponents .binary32 s x y) =
      if x = -1#8 then if y = 0#23 then .infinity s else .notANumber
      else if x = 0#8 then
        if h : y = 0#23 then .zero s
        else .finite s y.toNat (x.toNat - 150 + 1)
          (Nat.pos_of_ne_zero fun hzero => h (BitVec.eq_of_toNat_eq hzero))
      else .finite s (y.toNat + 8388608) (x.toNat - 150) (Nat.add_pos_right _ (by decide)) := by
  have hexponent := @UnpackedFloat.unpackExponent_packComponents .binary32 s x y
  have hmantissa := @UnpackedFloat.unpackMantissa_packComponents .binary32 s x y
  have hsign := @UnpackedFloat.unpackSign_packComponents .binary32 s x y
  have hleading : (1#1 ++ y).toNat = y.toNat + 8388608 := by
    rw [BitVec.toNat_append, ← Nat.shiftLeft_add_eq_or_of_lt y.isLt, Nat.add_comm]
    rfl
  simp only [UnpackedFloat.unpack, hexponent, hmantissa, hsign,
    UnpackedFloat.Sign.ofBitVec_toBitVec, hleading]
  rfl

/-- The machine number that a result is stored as. -/
def stored (u : UnpackedFloat) : Float32 := .ofModel (Float32.Model.pack u)

theorem unpacked_stored_infinity (s : UnpackedFloat.Sign) :
    unpacked (stored (.infinity s)) = .infinity s :=
  unpack_packComponents s _ _

theorem unpacked_stored_large (hm : 0 < m) (he : 105 ≤ e) :
    unpacked (stored (.finite s m e hm)) = .infinity s := by
  have hpack : UnpackedFloat.pack .binary32 (.finite s m e hm) =
      UnpackedFloat.packedInfinity .binary32 s := by
    refine if_pos ?_
    change 256 ≤ (e + 127 + 23).toNat + 1
    omega
  change UnpackedFloat.unpack .binary32 (UnpackedFloat.pack .binary32 (.finite s m e hm)) = _
  rw [hpack]
  exact unpack_packComponents s _ _

/-- The bits of a finite number; those of a short significand have no exponent. -/
theorem pack_finite (hm : 0 < m) (h : Significand m e) :
    UnpackedFloat.pack .binary32 (.finite s m e hm) =
      if 8388608 ≤ m then
        UnpackedFloat.packComponents .binary32 s (BitVec.ofNat 8 (e + 150).toNat) (BitVec.ofNat 23 m)
      else UnpackedFloat.packComponents .binary32 s 0#8 (BitVec.ofNat 23 m) := by
  have hlt := h.lt
  have hhigh := h.high
  have hinside : ¬256 ≤ (e + 127 + 23).toNat + 1 := by
    omega
  have hlog : m.log2 + 1 = 24 ↔ 8388608 ≤ m := by
    have hbelow : m.log2 < 24 := (Nat.log2_lt hm.ne').mpr hlt
    have hdigits := @Nat.le_log2 m 23 hm.ne'
    omega
  rw [← if_congr hlog rfl rfl, ← show e + 127 + 23 = e + 150 by omega]
  exact if_neg hinside

theorem unpacked_stored_finite (hm : 0 < m) (h : Significand m e) :
    unpacked (stored (.finite s m e hm)) = .finite s m e hm := by
  have hlt := h.lt
  have hlow := h.low
  have hhigh := h.high
  change UnpackedFloat.unpack .binary32 (UnpackedFloat.pack .binary32 (.finite s m e hm)) = _
  rw [pack_finite hm h]
  split_ifs with hlong
  · have hexponent : (BitVec.ofNat 8 (e + 150).toNat).toNat = (e + 150).toNat :=
      Nat.mod_eq_of_lt (by omega)
    have hmantissa : (BitVec.ofNat 23 m).toNat + 8388608 = m := by
      rw [BitVec.toNat_ofNat]
      omega
    have hhighest : BitVec.ofNat 8 (e + 150).toNat ≠ -1#8 := by
      rw [Ne, ← BitVec.toNat_inj, hexponent]
      change ¬(e + 150).toNat = 255
      omega
    have hlowest : BitVec.ofNat 8 (e + 150).toNat ≠ 0#8 := by
      rw [Ne, ← BitVec.toNat_inj, hexponent]
      change ¬(e + 150).toNat = 0
      omega
    have hvalue : ((e + 150).toNat : Int) - 150 = e := by
      omega
    rw [unpack_packComponents, if_neg hhighest, if_neg hlowest]
    simp only [hmantissa, hexponent, hvalue]
  · have hmantissa : (BitVec.ofNat 23 m).toNat = m := Nat.mod_eq_of_lt (by omega)
    have hne : BitVec.ofNat 23 m ≠ 0#23 := by
      rw [Ne, ← BitVec.toNat_inj, hmantissa]
      exact hm.ne'
    have hvalue : e = -149 := h.leading.resolve_right hlong
    rw [unpack_packComponents, if_neg (by decide), if_pos rfl, dif_neg hne]
    simp only [hmantissa, hvalue]
    rfl

theorem unpacked_stored_zero (s : UnpackedFloat.Sign) : unpacked (stored (.zero s)) = .zero s :=
  UnpackedFloat.unpack_packedZero

theorem unpacked_stored {u : UnpackedFloat} (h : Canonical u) : unpacked (stored u) = u := by
  cases u with
  | infinity s => exact unpacked_stored_infinity s
  | notANumber => exact h.elim
  | zero s => exact unpacked_stored_zero s
  | finite s m e hm => exact unpacked_stored_finite hm h

end Packing
section Signs

variable {s s' : UnpackedFloat.Sign} {v q q' : ℚ}

theorem withSign_mul : withSign (s * s') (q * q') = withSign s q * withSign s' q' := by
  cases s <;> cases s'
  · exact (neg_mul_neg q q').symm
  · exact (neg_mul q q').symm
  · exact (mul_neg q q').symm
  · rfl

theorem withSign_zero (s : UnpackedFloat.Sign) : withSign s 0 = 0 := by
  cases s
  · exact neg_zero
  · rfl

theorem value_zero (s : UnpackedFloat.Sign) : value (.zero s) = 0 := rfl

theorem value_infinity (s : UnpackedFloat.Sign) : value (.infinity s) = withSign s (2 ^ 128) := by
  cases s <;> rfl

theorem value_finite (s : UnpackedFloat.Sign) {m : Nat} {e : Int} (hm : 0 < m) :
    value (.finite s m e hm) = withSign s (m * 2 ^ e) := by
  cases s <;> rfl

theorem roundedTo_withSign (s : UnpackedFloat.Sign) (h : RoundedTo v q) :
    RoundedTo (withSign s v) (withSign s q) := by
  cases s with
  | negative => exact h.neg
  | positive => exact h

end Signs
end UnpackedFloat

/-- A machine number that a rational is rounded to. -/
structure Rounds (a : Float32) (q : ℚ) : Prop where
  isNumber : Scalar.isNumber a = true
  roundedTo : RoundedTo (Binary32.value a) q

namespace UnpackedFloat

variable {m : Nat} {e : Int} {acc : UnpackedFloat.Accuracy} {q : ℚ} {u : UnpackedFloat}

theorem isNumber_stored {v : UnpackedFloat} (h : unpacked (stored u) = v) (hv : v ≠ .notANumber) :
    Scalar.isNumber (stored u) = true := by
  rwa [isNumber_iff, h]

/-- A result of the format is stored as it is. -/
theorem rounds_stored (h : Canonical u) : Rounds (stored u) (value u) where
  isNumber := isNumber_stored (unpacked_stored h) fun hu => (hu ▸ h : Canonical .notANumber)
  roundedTo := by
    rw [Binary32.value, unpacked_stored h]
    exact RoundedTo.refl _

theorem rounds_stored_finite (s : UnpackedFloat.Sign) (hm : 0 < m) (hnormal : Normalized m e)
    (h : RoundedTo (min (m * 2 ^ e) (2 ^ 128)) q) :
    Rounds (stored (.finite s m e hm)) (withSign s q) := by
  rcases le_or_gt e 104 with hinside | habove
  · have hlegal := hnormal.significand hinside
    have hunpacked := @unpacked_stored_finite s m e hm hlegal
    refine ⟨isNumber_stored hunpacked UnpackedFloat.noConfusion, ?_⟩
    rw [Binary32.value, hunpacked, value_finite]
    rw [min_eq_left hlegal.lt_limit.le] at h
    exact roundedTo_withSign s h
  · have hunpacked := @unpacked_stored_large s m e hm (by omega)
    have hlarge : (2 : ℚ) ^ 128 ≤ m * 2 ^ e := by
      have hlong : (8388608 : ℚ) ≤ m := by
        exact_mod_cast hnormal.leading.resolve_left (by omega)
      calc (2 : ℚ) ^ 128 = 8388608 * 2 ^ (105 : Int) := by
            norm_num
        _ ≤ m * 2 ^ e := by
            gcongr
            · exact one_le_two
            · omega
    refine ⟨isNumber_stored hunpacked UnpackedFloat.noConfusion, ?_⟩
    rw [Binary32.value, hunpacked, value_infinity]
    rw [min_eq_right hlarge] at h
    exact roundedTo_withSign s h

/-- A result with some bits after its significand is stored as a number next to it. -/
theorem rounds_roundWithAccuracy (s : UnpackedFloat.Sign) (h : e ≤ -149 ∨ 8388608 ≤ m)
    (hrep : Represents (.ofMantissaAndAccuracy m acc) (q / 2 ^ e)) :
    Rounds (stored (UnpackedFloat.roundWithAccuracy .binary32 s m e acc)) (withSign s q) := by
  have hnearest := nearest_of_represents h hrep
  have hq : 0 ≤ q := by
    have hquotient : 0 ≤ q / 2 ^ e := (Nat.cast_nonneg _).trans hrep.mantissa_le
    rwa [le_div_iff₀ (two_zpow_pos e), zero_mul] at hquotient
  have hrounded := hnearest.roundedTo hq
  rw [roundWithAccuracy_eq s h]
  rcases settled_cases s hnearest with ⟨hzero, hsettled⟩ | ⟨m', e', hm', hsettled, hnormal, heq⟩
  · rw [hsettled]
    have hunpacked := unpacked_stored_zero s
    refine ⟨isNumber_stored hunpacked UnpackedFloat.noConfusion, ?_⟩
    rw [hzero, Nat.cast_zero, zero_mul, min_eq_left (by positivity)] at hrounded
    rw [Binary32.value, hunpacked, value_zero, ← withSign_zero s]
    exact roundedTo_withSign s hrounded
  · rw [hsettled]
    rw [← heq] at hrounded
    exact rounds_stored_finite s hm' hnormal hrounded

/-- A significand with zeros after it. -/
theorem shiftLeft_value (m k : Nat) (e : Int) :
    ((m <<< k : Nat) : ℚ) * 2 ^ (e - k : Int) = m * 2 ^ e := by
  rw [Nat.shiftLeft_eq, Nat.cast_mul, Nat.cast_pow, Nat.cast_two, mul_assoc, ← zpow_natCast,
    ← zpow_add₀ two_ne_zero, add_sub_cancel]

theorem rounds_round (s : UnpackedFloat.Sign) (hm : 0 < m) :
    Rounds (stored (UnpackedFloat.round .binary32 s m e)) (withSign s (m * 2 ^ e)) := by
  let k := (e - keptExponent m e).toNat
  have hdefinition : UnpackedFloat.round .binary32 s m e =
      UnpackedFloat.roundWithAccuracy .binary32 s (m <<< k) (e - k) .exact := rfl
  rw [hdefinition]
  refine rounds_roundWithAccuracy s ?_ ?_
  · -- Zeros are appended until all digits are there, or the exponent is the lowest one.
    have hlong : e - k ≤ -149 ∨ 23 ≤ m.log2 + k := by
      simp only [k, keptExponent]
      omega
    refine hlong.imp_right fun hlog => ?_
    calc 8388608 = 2 ^ 23 := by
          norm_num
      _ ≤ 2 ^ (m.log2 + k) := Nat.pow_le_pow_right Nat.two_pos hlog
      _ = 2 ^ m.log2 * 2 ^ k := pow_add _ _ _
      _ ≤ m * 2 ^ k := Nat.mul_le_mul_right _ (Nat.log2_self_le hm.ne')
      _ = m <<< k := (Nat.shiftLeft_eq m k).symm
  · rw [← shiftLeft_value m k e, mul_div_cancel_right₀ _ (two_zpow_pos _).ne']
    exact represents_exact _

/-- A sum or a difference of numbers, as a significand with a sign, is stored next to its value. -/
theorem rounds_normalize (n : Int) (e : Int) :
    Rounds (stored (UnpackedFloat.normalize .binary32 n e .positive)) (n * 2 ^ e) := by
  rcases lt_trichotomy n 0 with hneg | rfl | hpos
  · have hdefinition : UnpackedFloat.normalize .binary32 n e .positive =
        UnpackedFloat.round .binary32 .negative (-n).toNat e := by
      rw [UnpackedFloat.normalize, compare_lt_iff_lt.mpr hneg]
    have hcast : (n : ℚ) = -((-n).toNat : ℚ) := by
      have hint : n = -((-n).toNat : Int) := by
        omega
      exact_mod_cast hint
    rw [hdefinition, hcast, neg_mul]
    exact rounds_round .negative (by omega)
  · have hzero := @rounds_stored (.zero .positive) trivial
    rw [Int.cast_zero, zero_mul]
    exact hzero
  · have hdefinition : UnpackedFloat.normalize .binary32 n e .positive =
        UnpackedFloat.round .binary32 .positive n.toNat e := by
      rw [UnpackedFloat.normalize, compare_gt_iff_gt.mpr hpos]
    have hcast : (n : ℚ) = (n.toNat : ℚ) := by
      have hint : n = (n.toNat : Int) := by
        omega
      exact_mod_cast hint
    rw [hdefinition, hcast]
    exact rounds_round .positive (by omega)

end UnpackedFloat
end Penumbra
