import Mathlib
import Penumbra.Numeric.Binary32
import Penumbra.Proofs.Numeric.Operations

/-!
# Arithmetic of machine scalars

Sums, differences, products and quotients of finite numbers are the exact ones rounded once, and so
they are compared with numbers of the format as the exact ones are.  Infinity stays what it is, and
only a few combinations give no number.

**Results**

* `Binary32.IsFinite`, `Binary32.isFinite_iff`: finite numbers, by their value.
* `Rounds.add`, `Rounds.sub`, `Rounds.mul`, `Rounds.div`: the four operations.
* `Binary32.isNumber_div`: which quotients are numbers.
* `Binary32.nonneg_add`, `Binary32.nonneg_mul_self`, `Binary32.nonneg_sqrt`: what is not negative.
* `Binary32.value_abs`, `Binary32.maximum_zero`, `Binary32.value_clamp`: exact operations.
-/

namespace Penumbra

open Float.Model

namespace Binary32

/-- A machine number that is not infinite. -/
def IsFinite (a : Float32) : Prop := (magnitude? a).isSome = true

instance (a : Float32) : Decidable (IsFinite a) := inferInstanceAs (Decidable (_ = true))

variable {a b : Float32}

section Values

theorem isNumber_zero : Scalar.isNumber (0.0 : Float32) = true := rfl

theorem isNumber_one : Scalar.isNumber (1.0 : Float32) = true := rfl

theorem value_zero : value 0.0 = 0 := rfl

theorem value_one : value 1.0 = 1 := by
  have hunpacked : unpacked (1.0 : Float32) = .finite .positive 8388608 (-23) (by decide) := rfl
  rw [value, hunpacked, UnpackedFloat.value_finite, UnpackedFloat.withSign]
  norm_num

theorem abs_signed (a : Float32) (q : ℚ) : |signed a q| = |q| := by
  unfold signed
  split_ifs
  · exact abs_neg q
  · rfl

theorem representable_value (h : Scalar.isNumber a = true) : Representable (value a) := by
  rw [isNumber_iff] at h
  cases kind a with
  | notANumber hunpacked => exact absurd hunpacked h
  | infinity _ _ _ hvalue =>
      refine Representable.of_abs ?_
      rw [hvalue, abs_signed, abs_of_nonneg (by positivity)]
      exact Representable.limit
  | finite m e _ hlegal _ hvalue =>
      refine Representable.of_abs ?_
      rw [hvalue, abs_signed, abs_of_nonneg (by positivity)]
      exact Representable.of_magnitude hlegal.lt.le hlegal.low hlegal.lt_limit.le

/-- Finite numbers are the numbers with a value inside the range. -/
theorem isFinite_iff : IsFinite a ↔ Scalar.isNumber a = true ∧ |value a| < 2 ^ 128 := by
  cases kind a with
  | notANumber hunpacked =>
      have hfields := unpacked_eq a
      rw [hunpacked] at hfields
      have hexponent : exponentField a = highestField := by
        by_contra hne
        rw [if_neg hne] at hfields
        split_ifs at hfields
      refine iff_of_false ?_ fun h => (isNumber_iff a).mp h.1 hunpacked
      rw [IsFinite, magnitude?, if_pos hexponent]
      exact Bool.false_ne_true
  | infinity hparts _ _ hvalue =>
      rw [IsFinite, hparts, hvalue, abs_signed]
      exact iff_of_false Bool.false_ne_true fun h => (h.2.trans_le (le_abs_self _)).false
  | finite m e hparts hlegal hcanonical hvalue =>
      have hnumber : Scalar.isNumber a = true := by
        rw [isNumber_iff]
        rintro hunpacked
        rw [hunpacked] at hcanonical
        exact hcanonical
      rw [IsFinite, hparts, hvalue, abs_signed, abs_of_nonneg (by positivity)]
      exact iff_of_true rfl ⟨hnumber, hlegal.lt_limit⟩

theorem IsFinite.isNumber (h : IsFinite a) : Scalar.isNumber a = true := (isFinite_iff.mp h).1

theorem IsFinite.unpacked (h : IsFinite a) : UnpackedFloat.IsFinite (unpacked a) :=
  UnpackedFloat.isFinite_iff.mpr ⟨canonical_of_isNumber h.isNumber, (isFinite_iff.mp h).2⟩

/-- A number that is not finite is infinite. -/
theorem unpacked_infinity (h : Scalar.isNumber a = true) (hinfinite : ¬IsFinite a) :
    ∃ s, unpacked a = .infinity s := by
  have hcanonical := canonical_of_isNumber h
  have hlarge : ¬UnpackedFloat.IsFinite (Penumbra.unpacked a) := fun hunpacked =>
    hinfinite (isFinite_iff.mpr ⟨h, (UnpackedFloat.isFinite_iff.mp hunpacked).2⟩)
  cases hunpacked : Penumbra.unpacked a with
  | infinity s => exact ⟨s, rfl⟩
  | notANumber => exact absurd hunpacked ((isNumber_iff a).mp h)
  | zero s =>
      rw [hunpacked] at hlarge
      exact absurd trivial hlarge
  | finite s m e hm =>
      rw [hunpacked] at hlarge hcanonical
      exact absurd hcanonical hlarge

/-- Numbers with the same value are the same, unless both have none. -/
theorem eq_of_value_eq (ha : Scalar.isNumber a = true)
    (hb : Scalar.isNumber b = true) (h : value a = value b) (hne : value b ≠ 0) : a = b := by
  have hequal : (a == b) = true := by
    change ((unpacked a).compare (unpacked b) == some .eq) = true
    rw [UnpackedFloat.compare_eq (canonical_of_isNumber ha) (canonical_of_isNumber hb), beq_iff_eq,
      Option.some.injEq, compare_eq_iff_eq]
    exact h
  refine (eq_or_zero_of_beq hequal).resolve_right ?_
  rintro ⟨-, s, hs⟩
  rw [value, hs] at hne
  exact hne rfl

end Values
end Binary32

namespace Rounds

variable {a b : Float32} {q : ℚ}

theorem add (ha : Binary32.IsFinite a) (hb : Binary32.IsFinite b) :
    Rounds (a + b) (Binary32.value a + Binary32.value b) :=
  UnpackedFloat.rounds_add ha.unpacked hb.unpacked

theorem sub (ha : Binary32.IsFinite a) (hb : Binary32.IsFinite b) :
    Rounds (a - b) (Binary32.value a - Binary32.value b) := by
  have hsub : a - b = UnpackedFloat.stored (.add .binary32 (unpacked a) (unpacked b).neg) :=
    congrArg UnpackedFloat.stored (UnpackedFloat.sub_eq_add_neg _ _)
  have hsum := UnpackedFloat.rounds_add ha.unpacked (UnpackedFloat.neg_isFinite hb.unpacked)
  rw [UnpackedFloat.value_neg, ← sub_eq_add_neg] at hsum
  rw [hsub]
  exact hsum

theorem mul (ha : Binary32.IsFinite a) (hb : Binary32.IsFinite b) :
    Rounds (a * b) (Binary32.value a * Binary32.value b) :=
  UnpackedFloat.rounds_mul ha.unpacked hb.unpacked

theorem div (ha : Binary32.IsFinite a) (hb : Binary32.IsFinite b) (hne : Binary32.value b ≠ 0) :
    Rounds (a / b) (Binary32.value a / Binary32.value b) :=
  UnpackedFloat.rounds_div ha.unpacked hb.unpacked hne

variable {g : ℚ}

theorem le_value (h : Rounds a q) (hg : Representable g) (hle : g ≤ q) : g ≤ Binary32.value a :=
  h.roundedTo.le_of_le hg hle

theorem value_le (h : Rounds a q) (hg : Representable g) (hle : q ≤ g) : Binary32.value a ≤ g :=
  h.roundedTo.ge_of_ge hg hle

theorem nonneg (h : Rounds a q) (hq : 0 ≤ q) : 0 ≤ Binary32.value a := h.le_value .zero hq

theorem value_eq (h : Rounds a q) (hq : Representable q) : Binary32.value a = q :=
  h.roundedTo.eq_of_representable hq

/-- What is not larger than a number of the format is rounded to something that is not, either. -/
theorem abs_value_le (h : Rounds a q) (hg : Representable g) (hle : |q| ≤ g) :
    |Binary32.value a| ≤ g :=
  abs_le.mpr ⟨h.le_value hg.neg (abs_le.mp hle).1, h.value_le hg (abs_le.mp hle).2⟩

theorem isFinite (h : Rounds a q) (hg : Representable g) (hle : |q| ≤ g) (hlt : g < 2 ^ 128) :
    Binary32.IsFinite a :=
  Binary32.isFinite_iff.mpr ⟨h.isNumber, (h.abs_value_le hg hle).trans_lt hlt⟩

end Rounds

namespace Binary32

variable {a b : Float32}

section Infinity

theorem isNumber_stored_infinity (s : UnpackedFloat.Sign) :
    Scalar.isNumber (UnpackedFloat.stored (.infinity s)) = true :=
  UnpackedFloat.isNumber_stored (UnpackedFloat.unpacked_stored_infinity s) UnpackedFloat.noConfusion

theorem isNumber_stored_zero (s : UnpackedFloat.Sign) :
    Scalar.isNumber (UnpackedFloat.stored (.zero s)) = true :=
  UnpackedFloat.isNumber_stored (UnpackedFloat.unpacked_stored_zero s) UnpackedFloat.noConfusion

theorem value_stored_infinity : value (UnpackedFloat.stored (.infinity .positive)) = 2 ^ 128 := by
  rw [value, UnpackedFloat.unpacked_stored_infinity]
  rfl

theorem not_isFinite_of_infinity {s : UnpackedFloat.Sign} (h : unpacked a = .infinity s) :
    ¬IsFinite a := by
  intro hfinite
  have hunpacked := hfinite.unpacked
  rw [h] at hunpacked
  exact hunpacked

theorem value_ne_zero {u : UnpackedFloat} {s : UnpackedFloat.Sign} {m : Nat} {e : Int} {hm : 0 < m}
    (h : u = .finite s m e hm) : UnpackedFloat.value u ≠ 0 := by
  rw [h, UnpackedFloat.value_finite, ← abs_ne_zero, UnpackedFloat.abs_withSign,
    abs_of_pos (magnitude_pos hm e)]
  exact (magnitude_pos hm e).ne'

/-- A finite number without value is one of the zeros. -/
theorem unpacked_zero (h : IsFinite a) (hvalue : value a = 0) : ∃ s, unpacked a = .zero s := by
  cases hunpacked : unpacked a with
  | infinity s => exact absurd h (not_isFinite_of_infinity hunpacked)
  | notANumber => exact absurd hunpacked ((isNumber_iff a).mp h.isNumber)
  | zero s => exact ⟨s, rfl⟩
  | finite s m e hm => exact absurd hvalue (value_ne_zero hunpacked)

/-- A quotient is a number unless both parts are infinite or both have no value. -/
theorem isNumber_div (ha : Scalar.isNumber a = true) (hb : Scalar.isNumber b = true)
    (hfinite : IsFinite a ∨ IsFinite b) (hne : value a ≠ 0 ∨ value b ≠ 0) :
    Scalar.isNumber (a / b) = true := by
  have hcanonical := canonical_of_isNumber ha
  have hcanonical' := canonical_of_isNumber hb
  change Scalar.isNumber (UnpackedFloat.stored (.div .binary32 (unpacked a) (unpacked b))) = true
  rw [value, value] at hne
  cases hu : unpacked a with
  | notANumber =>
      exact absurd hu ((isNumber_iff a).mp ha)
  | infinity s =>
      cases hv : unpacked b with
      | notANumber => exact absurd hv ((isNumber_iff b).mp hb)
      | infinity s' =>
          exact absurd hfinite
            (not_or.mpr ⟨not_isFinite_of_infinity hu, not_isFinite_of_infinity hv⟩)
      | zero s' => exact isNumber_stored_infinity _
      | finite s' m' e' hm' => exact isNumber_stored_infinity _
  | zero s =>
      cases hv : unpacked b with
      | notANumber => exact absurd hv ((isNumber_iff b).mp hb)
      | infinity s' => exact isNumber_stored_zero _
      | zero s' =>
          rw [hu, hv] at hne
          exact absurd hne (not_or.mpr ⟨not_not.mpr rfl, not_not.mpr rfl⟩)
      | finite s' m' e' hm' => exact isNumber_stored_zero _
  | finite s m e hm =>
      cases hv : unpacked b with
      | notANumber => exact absurd hv ((isNumber_iff b).mp hb)
      | infinity s' => exact isNumber_stored_zero _
      | zero s' => exact isNumber_stored_infinity _
      | finite s' m' e' hm' =>
          rw [hu] at hcanonical
          rw [hv] at hcanonical'
          exact (@UnpackedFloat.rounds_div (.finite s m e hm) (.finite s' m' e' hm') hcanonical
            hcanonical' (value_ne_zero rfl)).isNumber

/-- Two numbers without value have no quotient. -/
theorem not_isNumber_div (ha : IsFinite a) (hb : IsFinite b) (hleft : value a = 0)
    (hright : value b = 0) : Scalar.isNumber (a / b) = false := by
  obtain ⟨s, hs⟩ := unpacked_zero ha hleft
  obtain ⟨s', hs'⟩ := unpacked_zero hb hright
  have hdiv : a / b = UnpackedFloat.stored (.div .binary32 (unpacked a) (unpacked b)) := rfl
  have hnone : UnpackedFloat.div .binary32 (.zero s) (.zero s') = .notANumber := rfl
  rw [hdiv, hs, hs', hnone]
  rfl

end Infinity

section Signs

theorem nonneg_iff : 0.0 ≤ a ↔ Scalar.isNumber a = true ∧ 0 ≤ value a := by
  constructor
  · intro h
    have hnumber := (LawfulScalar.isNumber_of_le h).2
    rw [le_iff_value isNumber_zero hnumber, value_zero] at h
    exact ⟨hnumber, h⟩
  · rintro ⟨hnumber, h⟩
    rwa [le_iff_value isNumber_zero hnumber, value_zero]

theorem nonneg_of_rounds {q : ℚ} (h : Rounds a q) (hq : 0 ≤ q) : 0.0 ≤ a :=
  nonneg_iff.mpr ⟨h.isNumber, h.nonneg hq⟩

theorem unpacked_infinity_of_nonneg (h : 0.0 ≤ a) (hinfinite : ¬IsFinite a) :
    unpacked a = .infinity .positive := by
  obtain ⟨hnumber, hvalue⟩ := nonneg_iff.mp h
  obtain ⟨s, hs⟩ := unpacked_infinity hnumber hinfinite
  cases s with
  | positive => exact hs
  | negative =>
      rw [value, hs, UnpackedFloat.value_infinity, UnpackedFloat.withSign] at hvalue
      norm_num at hvalue

theorem value_infinity_of_nonneg (h : 0.0 ≤ a) (hinfinite : ¬IsFinite a) : value a = 2 ^ 128 := by
  rw [value, unpacked_infinity_of_nonneg h hinfinite]
  rfl

/-- Infinity stays infinite when it is divided by a positive number. -/
theorem infinity_div (ha : 0.0 ≤ a) (hinfinite : ¬IsFinite a) (hb : IsFinite b)
    (hpos : 0 < value b) : Scalar.isNumber (a / b) = true ∧ value (a / b) = 2 ^ 128 := by
  have hparts := hb.unpacked
  rw [value] at hpos
  change Scalar.isNumber (UnpackedFloat.stored (.div .binary32 (unpacked a) (unpacked b))) = true ∧
    value (UnpackedFloat.stored (.div .binary32 (unpacked a) (unpacked b))) = 2 ^ 128
  rw [unpacked_infinity_of_nonneg ha hinfinite]
  generalize unpacked b = u at hparts hpos
  rcases u with _ | _ | s | ⟨_ | _, m, e, hm⟩
  · exact hparts.elim
  · exact hparts.elim
  · exact absurd hpos (lt_irrefl 0)
  · exact absurd hpos (neg_neg_of_pos (magnitude_pos hm e)).not_gt
  · exact ⟨isNumber_stored_infinity _, value_stored_infinity⟩

theorem nonneg_stored_infinity : 0.0 ≤ UnpackedFloat.stored (.infinity .positive) := by
  rw [nonneg_iff, value_stored_infinity]
  exact ⟨isNumber_stored_infinity _, by positivity⟩

theorem nonneg_stored_zero (s : UnpackedFloat.Sign) : 0.0 ≤ UnpackedFloat.stored (.zero s) := by
  rw [nonneg_iff, value, UnpackedFloat.unpacked_stored_zero]
  exact ⟨isNumber_stored_zero s, le_rfl⟩

theorem add_infinity {u : UnpackedFloat} (h : UnpackedFloat.IsFinite u ∨ u = .infinity .positive) :
    UnpackedFloat.add .binary32 u (.infinity .positive) = .infinity .positive ∧
      UnpackedFloat.add .binary32 (.infinity .positive) u = .infinity .positive := by
  rcases h with h | rfl
  · cases u with
    | infinity s => exact h.elim
    | notANumber => exact h.elim
    | zero s => exact ⟨rfl, rfl⟩
    | finite s m e hm => exact ⟨rfl, rfl⟩
  · exact ⟨rfl, rfl⟩

/-- The sum of what is not negative is not negative. -/
theorem nonneg_add (ha : 0.0 ≤ a) (hb : 0.0 ≤ b) : 0.0 ≤ a + b := by
  have hsum : a + b = UnpackedFloat.stored (.add .binary32 (unpacked a) (unpacked b)) := rfl
  by_cases hfinite : IsFinite a
  · by_cases hfinite' : IsFinite b
    · exact nonneg_of_rounds (Rounds.add hfinite hfinite')
        (add_nonneg (nonneg_iff.mp ha).2 (nonneg_iff.mp hb).2)
    · rw [hsum, unpacked_infinity_of_nonneg hb hfinite', (add_infinity (Or.inl hfinite.unpacked)).1]
      exact nonneg_stored_infinity
  · have hright : UnpackedFloat.IsFinite (unpacked b) ∨ unpacked b = .infinity .positive :=
      (em (IsFinite b)).imp IsFinite.unpacked (unpacked_infinity_of_nonneg hb)
    rw [hsum, unpacked_infinity_of_nonneg ha hfinite, (add_infinity hright).2]
    exact nonneg_stored_infinity

theorem nonneg_mul_self (h : Scalar.isNumber a = true) : 0.0 ≤ a * a := by
  by_cases hfinite : IsFinite a
  · exact nonneg_of_rounds (Rounds.mul hfinite hfinite) (mul_self_nonneg _)
  · obtain ⟨s, hs⟩ := unpacked_infinity h hfinite
    have hproduct : a * a = UnpackedFloat.stored (.mul .binary32 (unpacked a) (unpacked a)) := rfl
    have hsquare : UnpackedFloat.mul .binary32 (.infinity s) (.infinity s) =
        .infinity .positive := by
      cases s <;> rfl
    rw [hproduct, hs, hsquare]
    exact nonneg_stored_infinity

theorem nonneg_sqrt (h : 0.0 ≤ a) : 0.0 ≤ Scalar.sqrt a := by
  obtain ⟨hnumber, hvalue⟩ := nonneg_iff.mp h
  have hroot : Scalar.sqrt a = UnpackedFloat.stored (.sqrt .binary32 (unpacked a)) := rfl
  by_cases hfinite : IsFinite a
  · have hparts := hfinite.unpacked
    rw [hroot]
    rw [value] at hvalue
    generalize unpacked a = u at hparts hvalue
    rcases u with _ | _ | s | ⟨_ | _, m, e, hm⟩
    · exact hparts.elim
    · exact hparts.elim
    · exact nonneg_stored_zero s
    · exact absurd hvalue (neg_neg_of_pos (magnitude_pos hm e)).not_ge
    · obtain ⟨q, hq, hrounds⟩ := @UnpackedFloat.rounds_sqrt m e hm
      exact nonneg_of_rounds hrounds hq
  · rw [hroot, unpacked_infinity_of_nonneg h hfinite]
    exact nonneg_stored_infinity

end Signs

section Exact

theorem canonical_abs {u : UnpackedFloat} (h : UnpackedFloat.Canonical u) :
    UnpackedFloat.Canonical u.abs := by
  cases u <;> exact h

theorem unpacked_abs (h : Scalar.isNumber a = true) :
    unpacked (Scalar.abs a) = (unpacked a).abs :=
  UnpackedFloat.unpacked_stored (canonical_abs (canonical_of_isNumber h))

theorem isNumber_abs (h : Scalar.isNumber a = true) : Scalar.isNumber (Scalar.abs a) = true := by
  have hcanonical := canonical_abs (canonical_of_isNumber h)
  rw [isNumber_iff, unpacked_abs h]
  intro hnone
  rwa [hnone] at hcanonical

theorem value_abs (h : Scalar.isNumber a = true) : value (Scalar.abs a) = |value a| := by
  rw [value, value, unpacked_abs h]
  cases unpacked a with
  | infinity s =>
      rw [UnpackedFloat.value_infinity, UnpackedFloat.abs_withSign, abs_of_nonneg (by positivity)]
      rfl
  | notANumber => exact abs_zero.symm
  | zero s => exact abs_zero.symm
  | finite s m e hm =>
      rw [UnpackedFloat.value_finite, UnpackedFloat.abs_withSign,
        abs_of_pos (magnitude_pos hm e)]
      rfl

theorem maximum_zero (h : Scalar.isNumber a = true) :
    Scalar.isNumber (Scalar.maximum a 0.0) = true ∧
      value (Scalar.maximum a 0.0) = max (value a) 0 := by
  have hless := lt_iff_value h isNumber_zero
  rw [value_zero] at hless
  rw [Scalar.maximum, if_pos h]
  split_ifs with hnegative
  · exact ⟨isNumber_zero, (max_eq_right (hless.mp hnegative).le).symm⟩
  · exact ⟨h, (max_eq_left (not_lt.mp (mt hless.mpr hnegative))).symm⟩

/-- What is not a number is not brought into an interval. -/
theorem clamp_of_not_isNumber (h : Scalar.isNumber a = false) : Scalar.clamp 0.0 1.0 a = a := by
  have hbelow : ¬a < 0.0 := fun hlt => by
    rw [(LawfulScalar.isNumber_of_lt hlt).1] at h
    exact Bool.noConfusion h
  have habove : ¬(1.0 : Float32) < a := fun hlt => by
    rw [(LawfulScalar.isNumber_of_lt hlt).2] at h
    exact Bool.noConfusion h
  rw [Scalar.clamp, if_neg hbelow, if_neg habove]

theorem value_clamp (h : Scalar.isNumber a = true) :
    Scalar.isNumber (Scalar.clamp 0.0 1.0 a) = true ∧
      value (Scalar.clamp 0.0 1.0 a) = min (max (value a) 0) 1 := by
  have hraised : ∃ r, Scalar.isNumber r = true ∧ value r = max (value a) 0 ∧
      (if a < 0.0 then 0.0 else a) = r := by
    have hless := lt_iff_value h isNumber_zero
    rw [value_zero] at hless
    split_ifs with hnegative
    · exact ⟨_, isNumber_zero, (max_eq_right (hless.mp hnegative).le).symm, rfl⟩
    · exact ⟨_, h, (max_eq_left (not_lt.mp (mt hless.mpr hnegative))).symm, rfl⟩
  obtain ⟨r, hnumber, hvalue, heq⟩ := hraised
  have hmore := lt_iff_value isNumber_one hnumber
  rw [value_one] at hmore
  rw [Scalar.clamp, heq, ← hvalue]
  split_ifs with habove
  · exact ⟨isNumber_one, value_one.trans (min_eq_right (hmore.mp habove).le).symm⟩
  · exact ⟨hnumber, (min_eq_left (not_lt.mp (mt hmore.mpr habove))).symm⟩

end Exact
end Binary32
end Penumbra
