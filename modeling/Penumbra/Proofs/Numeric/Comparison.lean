import Penumbra.Numeric.Single

/-!
# Comparisons of scalars

A machine scalar that is not a number is compared with nothing, and sums and products of it are not
numbers either.  Numbers are compared as usual.

**Results**

* `LawfulScalar`: what the geometry needs to know of comparisons, sums and products.
* `UnpackedFloat.swap_compare`, `isNumber_iff`: what machine numbers are, and how they compare.
* `Scalar.minimum_le_right`, `Scalar.le_maximum_right`: what the second one of two scalars bounds.
* `Scalar.Span`: the ends of some scalars are in order.
-/

namespace Penumbra

/-- Only numbers are compared or are sums and products, and any two numbers are compared. -/
class LawfulScalar (K : Type) [Scalar K] : Prop where
  isNumber_of_le : ∀ {a b : K}, a ≤ b → Scalar.isNumber a = true ∧ Scalar.isNumber b = true
  isNumber_of_lt : ∀ {a b : K}, a < b → Scalar.isNumber a = true ∧ Scalar.isNumber b = true
  le_of_not_lt : ∀ {a b : K}, Scalar.isNumber a = true → Scalar.isNumber b = true → ¬b < a → a ≤ b
  lt_irrefl : ∀ a : K, ¬a < a
  isNumber_of_add : ∀ {a b : K}, Scalar.isNumber (a + b) = true →
    Scalar.isNumber a = true ∧ Scalar.isNumber b = true
  isNumber_of_mul : ∀ {a b : K}, Scalar.isNumber (a * b) = true →
    Scalar.isNumber a = true ∧ Scalar.isNumber b = true

section Machine

open Float.Model

namespace UnpackedFloat

theorem swap_compare_magnitude (e e' : Int) (m m' : Nat) :
    ((compare e e').then (compare m m')).swap = (compare e' e).then (compare m' m) := by
  rw [Ordering.swap_then, Int.compare_swap, Nat.compare_swap]

theorem swap_compare (a b : UnpackedFloat) : (a.compare b).map Ordering.swap = b.compare a := by
  rcases a with ⟨_ | _⟩ | _ | s | ⟨_ | _, m, e, hm⟩ <;>
    rcases b with ⟨_ | _⟩ | _ | s' | ⟨_ | _, m', e', hm'⟩ <;>
    first
    | rfl
    | exact congrArg some (swap_compare_magnitude e e' m m')
    | exact congrArg (fun o => some (Ordering.swap o)) (swap_compare_magnitude e e' m m')

theorem compare_eq_none_iff (a b : UnpackedFloat) :
    a.compare b = none ↔ a = .notANumber ∨ b = .notANumber := by
  constructor
  · intro h
    rcases a with ⟨_ | _⟩ | _ | s | ⟨_ | _, m, e, hm⟩ <;>
      rcases b with ⟨_ | _⟩ | _ | s' | ⟨_ | _, m', e', hm'⟩ <;>
      first
      | exact Or.inl rfl
      | exact Or.inr rfl
      | cases h
  · rintro (rfl | rfl)
    · rfl
    · cases a <;> rfl

theorem compare_self {a : UnpackedFloat} (ha : a ≠ .notANumber) : a.compare a = some .eq := by
  obtain ⟨o, ho⟩ : ∃ o, a.compare a = some o := by
    rw [← Option.ne_none_iff_exists', Ne, compare_eq_none_iff]
    simpa using ha
  have hswap := swap_compare a a
  rw [ho] at hswap ⊢
  cases o with
  | eq => rfl
  | lt => cases hswap
  | gt => cases hswap

end UnpackedFloat

/-- The bits of a machine number taken apart. -/
def unpacked (a : Float32) : UnpackedFloat := a.toModel.unpack

theorem le_iff_compare (a b : Float32) :
    a ≤ b ↔ ((unpacked a).compare (unpacked b)).any (·.isLE) = true :=
  decide_eq_true_iff

theorem lt_iff_compare (a b : Float32) : a < b ↔ (unpacked a).compare (unpacked b) = some .lt :=
  decide_eq_true_iff.trans beq_iff_eq

theorem isNumber_iff (a : Float32) : Scalar.isNumber a = true ↔ unpacked a ≠ .notANumber := by
  change ((unpacked a).compare (unpacked a) == some .eq) = true ↔ _
  rw [beq_iff_eq]
  constructor
  · intro h hnone
    rw [hnone] at h
    cases h
  · exact UnpackedFloat.compare_self

/-- Two numbers that are compared are numbers. -/
theorem isNumber_of_compare {a b : Float32} {o : Ordering}
    (h : (unpacked a).compare (unpacked b) = some o) :
    Scalar.isNumber a = true ∧ Scalar.isNumber b = true := by
  have hnone : ¬(unpacked a).compare (unpacked b) = none := by
    rw [h]
    exact Option.some_ne_none o
  rw [UnpackedFloat.compare_eq_none_iff, not_or] at hnone
  rw [isNumber_iff, isNumber_iff]
  exact hnone

/-- A result that is not a number stays one when it is stored. -/
theorem unpacked_ofModel_notANumber :
    unpacked (.ofModel (Float32.Model.pack .notANumber)) = .notANumber := rfl

/-- An operation that gives no number for what is not a number. -/
theorem isNumber_of_operation (op : UnpackedFloat → UnpackedFloat → UnpackedFloat)
    (hleft : ∀ y, op .notANumber y = .notANumber) (hright : ∀ x, op x .notANumber = .notANumber)
    {a b : Float32}
    (h : Scalar.isNumber (Float32.ofModel (Float32.Model.pack (op (unpacked a) (unpacked b)))) =
      true) :
    Scalar.isNumber a = true ∧ Scalar.isNumber b = true := by
  rw [isNumber_iff] at h
  rw [isNumber_iff, isNumber_iff]
  constructor
  · intro ha
    rw [ha, hleft] at h
    exact h unpacked_ofModel_notANumber
  · intro hb
    rw [hb, hright] at h
    exact h unpacked_ofModel_notANumber

instance : LawfulScalar Float32 where
  isNumber_of_le h := by
    rw [le_iff_compare, Option.any_eq_true] at h
    obtain ⟨o, ho, -⟩ := h
    exact isNumber_of_compare ho
  isNumber_of_lt h := isNumber_of_compare ((lt_iff_compare _ _).mp h)
  le_of_not_lt {a b} ha hb h := by
    rw [isNumber_iff] at ha hb
    rw [lt_iff_compare, ← UnpackedFloat.swap_compare] at h
    rw [le_iff_compare]
    cases hcompare : (unpacked a).compare (unpacked b) with
    | none => exact absurd ((UnpackedFloat.compare_eq_none_iff _ _).mp hcompare) (by simp [ha, hb])
    | some o => cases o <;> simp_all
  lt_irrefl a h := by
    rw [lt_iff_compare] at h
    have hnumber := (isNumber_iff a).mp (isNumber_of_compare h).1
    rw [UnpackedFloat.compare_self hnumber] at h
    cases h
  isNumber_of_add := by
    refine isNumber_of_operation (.add .binary32) (fun _ => rfl) ?_
    intro x
    cases x <;> rfl
  isNumber_of_mul := by
    refine isNumber_of_operation (.mul .binary32) (fun _ => rfl) ?_
    intro x
    cases x <;> rfl

end Machine

namespace Scalar

variable {K : Type} [Scalar K] [LawfulScalar K]

theorem le_refl_of_isNumber {a : K} (ha : isNumber a = true) : a ≤ a :=
  LawfulScalar.le_of_not_lt ha ha (LawfulScalar.lt_irrefl a)

theorem not_le_of_not_isNumber {a b : K} (ha : isNumber a = false) : ¬a ≤ b := by
  intro h
  rw [(LawfulScalar.isNumber_of_le h).1] at ha
  cases ha

theorem minimum_le_right (a : K) {b : K} (hb : isNumber b = true) : minimum a b ≤ b := by
  unfold minimum
  split
  · next ha =>
      split
      · exact le_refl_of_isNumber hb
      · next hlt => exact LawfulScalar.le_of_not_lt ha hb hlt
  · exact le_refl_of_isNumber hb

theorem le_maximum_right (a : K) {b : K} (hb : isNumber b = true) : b ≤ maximum a b := by
  unfold maximum
  split
  · next ha =>
      split
      · exact le_refl_of_isNumber hb
      · next hlt => exact LawfulScalar.le_of_not_lt hb ha hlt
  · exact le_refl_of_isNumber hb

/-- The ends of some scalars are in order, unless there is no number among these. -/
def Span (low high : K) (among : List K) : Prop :=
  low ≤ high ∨ isNumber low = false ∧ isNumber high = false ∧ ∀ a ∈ among, isNumber a = false

end Scalar
end Penumbra
