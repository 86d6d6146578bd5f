import Mathlib.Data.List.Basic
import Penumbra.Proofs.Numeric.Pixels

/-!
# The smallest and the largest of some scalars

Taking the smaller of two scalars passes over what is not a number.  Repeated over a list, it ends
at a scalar of the list that is at most each number of the list, wherever in the list there are
scalars that are not numbers, and only a list without numbers ends at what is not one.

**Results**

* `OrderedScalar`: numbers are in one order, up to numbers that are not told apart.
* `Scalar.le_minimum_iff`, `Scalar.maximum_le_iff`: what is below and above two numbers.
* `Scalar.Lowest`, `Scalar.Highest`: the ends of some scalars, which one more scalar extends.
* `Scalar.LeastInterval`, `Scalar.leastInterval`: between the ends lies the least interval around
  the numbers.
-/

namespace Penumbra

/-- Numbers are in one order; numbers on both sides of each other are not told apart. -/
class OrderedScalar (K : Type) [Scalar K] : Prop extends LawfulScalar K where
  le_of_lt : ∀ {a b : K}, a < b → a ≤ b
  le_trans : ∀ {a b c : K}, a ≤ b → b ≤ c → a ≤ c
  beq_of_le : ∀ {a b : K}, a ≤ b → b ≤ a → (a == b) = true

instance : OrderedScalar Float32 where
  le_of_lt := PixelScalar.le_of_lt
  le_trans := PixelScalar.le_trans
  beq_of_le {a b} hab hba := by
    obtain ⟨ha, hb⟩ := LawfulScalar.isNumber_of_le hab
    have hvalue : Binary32.value a = Binary32.value b :=
      le_antisymm ((Binary32.le_iff_value ha hb).mp hab) ((Binary32.le_iff_value hb ha).mp hba)
    have hcompare : (unpacked a).compare (unpacked b) =
        some (compare (Binary32.value a) (Binary32.value b)) :=
      UnpackedFloat.compare_eq (Binary32.canonical_of_isNumber ha)
        (Binary32.canonical_of_isNumber hb)
    rw [compare_eq_iff_eq.mpr hvalue] at hcompare
    change ((unpacked a).compare (unpacked b) == some .eq) = true
    exact beq_iff_eq.mpr hcompare

instance ExactScalar.orderedScalar {K : Type} [ExactScalar K] : OrderedScalar K where
  le_of_lt := le_of_lt
  le_trans := le_trans
  beq_of_le hab hba := decide_eq_true (le_antisymm hab hba)

namespace Scalar

variable {K : Type} [Scalar K] {a b c low high : K} {among : List K}

section Pairs

theorem minimum_eq_or (a b : K) : minimum a b = a ∨ minimum a b = b := by
  unfold minimum
  split_ifs
  · exact Or.inr rfl
  · exact Or.inl rfl
  · exact Or.inr rfl

theorem maximum_eq_or (a b : K) : maximum a b = a ∨ maximum a b = b := by
  unfold maximum
  split_ifs
  · exact Or.inr rfl
  · exact Or.inl rfl
  · exact Or.inr rfl

variable [OrderedScalar K]

theorem le_total_of_isNumber (ha : isNumber a = true) (hb : isNumber b = true) : a ≤ b ∨ b ≤ a := by
  by_cases hlt : b < a
  · exact Or.inr (OrderedScalar.le_of_lt hlt)
  · exact Or.inl (LawfulScalar.le_of_not_lt ha hb hlt)

theorem minimum_le_left (ha : isNumber a = true) (b : K) : minimum a b ≤ a := by
  rw [minimum, if_pos ha]
  split_ifs with hlt
  · exact OrderedScalar.le_of_lt hlt
  · exact le_refl_of_isNumber ha

theorem le_maximum_left (ha : isNumber a = true) (b : K) : a ≤ maximum a b := by
  rw [maximum, if_pos ha]
  split_ifs with hlt
  · exact OrderedScalar.le_of_lt hlt
  · exact le_refl_of_isNumber ha

/-- Numbers at most the smaller of two numbers are at most both. -/
theorem le_minimum_iff (ha : isNumber a = true) (hb : isNumber b = true) :
    c ≤ minimum a b ↔ c ≤ a ∧ c ≤ b := by
  constructor
  · intro h
    exact ⟨OrderedScalar.le_trans h (minimum_le_left ha b),
      OrderedScalar.le_trans h (minimum_le_right a hb)⟩
  · rintro ⟨hca, hcb⟩
    rcases minimum_eq_or a b with h | h
    · rwa [h]
    · rwa [h]

/-- Numbers at least the larger of two numbers are at least both. -/
theorem maximum_le_iff (ha : isNumber a = true) (hb : isNumber b = true) :
    maximum a b ≤ c ↔ a ≤ c ∧ b ≤ c := by
  constructor
  · intro h
    exact ⟨OrderedScalar.le_trans (le_maximum_left ha b) h,
      OrderedScalar.le_trans (le_maximum_right a hb) h⟩
  · rintro ⟨hac, hbc⟩
    rcases maximum_eq_or a b with h | h
    · rwa [h]
    · rwa [h]

end Pairs

section Lists

/-- The smallest of some scalars: one of them, and at most each number among them. -/
structure Lowest (low : K) (among : List K) : Prop where
  mem : low ∈ among
  le : ∀ a ∈ among, isNumber a = true → low ≤ a

/-- The largest of some scalars: one of them, and at least each number among them. -/
structure Highest (high : K) (among : List K) : Prop where
  mem : high ∈ among
  le : ∀ a ∈ among, isNumber a = true → a ≤ high

/--
The least interval around the numbers among some scalars.  What is not a number counts for nothing,
and it is an end of the interval just when there is no number.
-/
structure LeastInterval (low high : K) (among : List K) : Prop where
  contains : ∀ a ∈ among, isNumber a = true → low ≤ a ∧ a ≤ high
  least : (∃ a ∈ among, isNumber a = true) → ∀ below above : K,
    (∀ a ∈ among, isNumber a = true → below ≤ a ∧ a ≤ above) → below ≤ low ∧ high ≤ above
  isNumber_low_iff : isNumber low = true ↔ ∃ a ∈ among, isNumber a = true
  isNumber_high_iff : isNumber high = true ↔ ∃ a ∈ among, isNumber a = true

variable [OrderedScalar K]

theorem Lowest.single (a : K) : Lowest a [a] where
  mem := List.mem_singleton_self a
  le b hb hnumber := by
    obtain rfl := List.mem_singleton.mp hb
    exact le_refl_of_isNumber hnumber

theorem Highest.single (a : K) : Highest a [a] where
  mem := List.mem_singleton_self a
  le b hb hnumber := by
    obtain rfl := List.mem_singleton.mp hb
    exact le_refl_of_isNumber hnumber

theorem Lowest.extend (h : Lowest low among) (a : K) :
    Lowest (minimum low a) (among ++ [a]) where
  mem := by
    rcases minimum_eq_or low a with heq | heq
    · rw [heq]
      exact List.mem_append_left _ h.mem
    · rw [heq]
      exact List.mem_append_right _ (List.mem_singleton_self a)
  le b hb hnumber := by
    rcases List.mem_append.mp hb with hb | hb
    · have hle := h.le b hb hnumber
      exact OrderedScalar.le_trans (minimum_le_left (LawfulScalar.isNumber_of_le hle).1 a) hle
    · obtain rfl := List.mem_singleton.mp hb
      exact minimum_le_right low hnumber

theorem Highest.extend (h : Highest high among) (a : K) :
    Highest (maximum high a) (among ++ [a]) where
  mem := by
    rcases maximum_eq_or high a with heq | heq
    · rw [heq]
      exact List.mem_append_left _ h.mem
    · rw [heq]
      exact List.mem_append_right _ (List.mem_singleton_self a)
  le b hb hnumber := by
    rcases List.mem_append.mp hb with hb | hb
    · have hle := h.le b hb hnumber
      exact OrderedScalar.le_trans hle (le_maximum_left (LawfulScalar.isNumber_of_le hle).2 a)
    · obtain rfl := List.mem_singleton.mp hb
      exact le_maximum_right high hnumber

/-- The larger of two scalars is the largest of the two. -/
theorem highest_maximum (a b : K) : Highest (maximum a b) [a, b] := (Highest.single a).extend b

theorem Lowest.isNumber_iff (h : Lowest low among) :
    isNumber low = true ↔ ∃ a ∈ among, isNumber a = true := by
  constructor
  · intro hlow
    exact ⟨low, h.mem, hlow⟩
  · rintro ⟨a, ha, hnumber⟩
    exact (LawfulScalar.isNumber_of_le (h.le a ha hnumber)).1

theorem Highest.isNumber_iff (h : Highest high among) :
    isNumber high = true ↔ ∃ a ∈ among, isNumber a = true := by
  constructor
  · intro hhigh
    exact ⟨high, h.mem, hhigh⟩
  · rintro ⟨a, ha, hnumber⟩
    exact (LawfulScalar.isNumber_of_le (h.le a ha hnumber)).2

/-- No interval around the numbers is smaller than that between the ends, which are among them. -/
theorem leastInterval (hlow : Lowest low among) (hhigh : Highest high among) :
    LeastInterval low high among where
  contains a ha hnumber := ⟨hlow.le a ha hnumber, hhigh.le a ha hnumber⟩
  least hsome _ _ hbetween :=
    ⟨(hbetween low hlow.mem (hlow.isNumber_iff.mpr hsome)).1,
      (hbetween high hhigh.mem (hhigh.isNumber_iff.mpr hsome)).2⟩
  isNumber_low_iff := hlow.isNumber_iff
  isNumber_high_iff := hhigh.isNumber_iff

/-- The ends of the least interval are in order, unless there is no number. -/
theorem LeastInterval.span (h : LeastInterval low high among) : Span low high among := by
  by_cases hsome : ∃ a ∈ among, isNumber a = true
  · obtain ⟨a, ha, hnumber⟩ := hsome
    obtain ⟨hlow, hhigh⟩ := h.contains a ha hnumber
    exact Or.inl (OrderedScalar.le_trans hlow hhigh)
  · refine Or.inr ⟨?_, ?_, ?_⟩
    · rwa [← Bool.not_eq_true, h.isNumber_low_iff]
    · rwa [← Bool.not_eq_true, h.isNumber_high_iff]
    · simpa using hsome

end Lists

end Scalar
end Penumbra
