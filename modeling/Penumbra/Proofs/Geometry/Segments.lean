import Mathlib.Algebra.Order.Field.Basic
import Penumbra.Illumination
import Penumbra.Proofs.Geometry.Motions

/-!
# Segments that share a point

Whether two segments share a point is decided by four areas: those of the triangles that each segment
spans with the ends of the other one.  The test is exact for all segments, also for those along one
line and those that are a single point.

The areas along a segment change evenly.  So if a segment has a point of the line of the other one,
its ends are on opposite sides of that line, or both on it, or the point is an end.

**Results**

* `Vec2.doubleArea`, `onSegment_iff`: the points of a segment are those of its line in its box.
* `exists_common_of_opposite`: segments that cross.
* `ends_of_common`: which ends are where if there is a common point.
* `segmentsTouch_iff`: what the test decides.
-/

namespace Penumbra

variable {K : Type} [ExactScalar K]

namespace Vec2

/-- Twice the area of a triangle, positive if its corners run counter-clockwise. -/
def doubleArea (a b c : Vec2 K) : K := (b - a).cross (c - a)

theorem doubleArea_eq (a b c : Vec2 K) :
    a.doubleArea b c = (b.x - a.x) * (c.y - a.y) - (b.y - a.y) * (c.x - a.x) := rfl

/-- Along a segment the area changes evenly. -/
theorem doubleArea_lerp (a b c d : Vec2 K) (t : K) :
    a.doubleArea b (c.lerp d t) =
      a.doubleArea b c + (a.doubleArea b d - a.doubleArea b c) * t := by
  simp only [doubleArea_eq, lerp_x, lerp_y]
  ring

theorem doubleArea_of_onSegment {a b p : Vec2 K} (h : a.OnSegment b p) : a.doubleArea b p = 0 := by
  obtain ⟨t, -, -, rfl⟩ := h
  simp only [doubleArea_eq, lerp_x, lerp_y]
  ring

end Vec2

section Spans

theorem inSpan_iff (a b p : Vec2 K) :
    inSpan a b p = true ↔ (min a.x b.x ≤ p.x ∧ p.x ≤ max a.x b.x) ∧
      min a.y b.y ≤ p.y ∧ p.y ≤ max a.y b.y := by
  simp [inSpan, and_assoc]

/-- The points of a segment are those of its line in the box between its ends. -/
theorem onSegment_iff (a b p : Vec2 K) :
    a.OnSegment b p ↔ a.doubleArea b p = 0 ∧ inSpan a b p = true := by
  rw [inSpan_iff]
  constructor
  · intro h
    refine ⟨Vec2.doubleArea_of_onSegment h, ?_⟩
    obtain ⟨t, hlow, hhigh, rfl⟩ := h
    exact ⟨⟨min_le_lerp hlow hhigh, lerp_le_max hlow hhigh⟩, min_le_lerp hlow hhigh,
      lerp_le_max hlow hhigh⟩
  · rintro ⟨harea, ⟨hleft, hright⟩, hbottom, htop⟩
    rw [Vec2.doubleArea_eq] at harea
    by_cases hx : a.x = b.x
    · -- The box is a segment itself.
      obtain ⟨t, hlow, hhigh, hy⟩ := exists_ratio hbottom htop
      rw [← hx, min_self] at hleft
      rw [← hx, max_self] at hright
      refine ⟨t, hlow, hhigh, Vec2.ext ?_ hy⟩
      rw [Vec2.lerp_x, ← hx, sub_self, zero_mul, add_zero]
      exact le_antisymm hright hleft
    · obtain ⟨t, hlow, hhigh, hpx⟩ := exists_ratio hleft hright
      refine ⟨t, hlow, hhigh, Vec2.ext hpx ?_⟩
      have hwidth : b.x - a.x ≠ 0 := sub_ne_zero.mpr fun h => hx h.symm
      refine mul_left_cancel₀ hwidth ?_
      rw [Vec2.lerp_y]
      linear_combination harea + (b.y - a.y) * hpx

end Spans

section Common

variable {a b c d p : Vec2 K}

theorem oppositeSigns_iff (x y : K) : oppositeSigns x y = true ↔ x * y < 0 := by
  rw [mul_neg_iff]
  simp [oppositeSigns]

theorem exists_zero_of_opposite {x y : K} (h : x * y < 0) :
    ∃ t : K, 0 ≤ t ∧ t ≤ 1 ∧ 0 = x + (y - x) * t := by
  rcases mul_neg_iff.mp h with ⟨hx, hy⟩ | ⟨hx, hy⟩
  · exact exists_ratio (min_le_iff.mpr (Or.inr hy.le)) (le_max_iff.mpr (Or.inl hx.le))
  · exact exists_ratio (min_le_iff.mpr (Or.inl hx.le)) (le_max_iff.mpr (Or.inr hy.le))

/-- Two segments whose ends are on opposite sides of each other cross. -/
theorem exists_common_of_opposite (h : a.doubleArea b c * a.doubleArea b d < 0)
    (h' : c.doubleArea d a * c.doubleArea d b < 0) : ∃ p, a.OnSegment b p ∧ c.OnSegment d p := by
  have hslope : a.doubleArea b d - a.doubleArea b c ≠ 0 := by
    intro hzero
    rw [sub_eq_zero.mp hzero] at h
    exact absurd h (mul_self_nonneg _).not_gt
  obtain ⟨t, ht, ht', htzero⟩ := exists_zero_of_opposite h
  obtain ⟨s, hs, hs', hszero⟩ := exists_zero_of_opposite h'
  refine ⟨a.lerp b s, ⟨s, hs, hs', rfl⟩, t, ht, ht', ?_⟩
  simp only [Vec2.doubleArea_eq] at hslope htzero hszero
  -- The lines are not parallel, so that the factor by which they miss each other may be cancelled.
  ext
  · refine mul_left_cancel₀ hslope ?_
    rw [Vec2.lerp_x, Vec2.lerp_x]
    linear_combination (b.x - a.x) * hszero + (d.x - c.x) * htzero
  · refine mul_left_cancel₀ hslope ?_
    rw [Vec2.lerp_y, Vec2.lerp_y]
    linear_combination (b.y - a.y) * hszero + (d.y - c.y) * htzero

/-- A value that changes evenly and is zero somewhere changes its sign, or is zero all along, or is
zero at an end. -/
theorem sign_change {x y t : K} (hlow : 0 ≤ t) (hhigh : t ≤ 1) (h : x + (y - x) * t = 0) :
    x * y < 0 ∨ (x = 0 ∧ y = 0) ∨ t = 0 ∨ t = 1 := by
  rcases hlow.eq_or_lt with rfl | hpos
  · exact Or.inr (Or.inr (Or.inl rfl))
  rcases hhigh.eq_or_lt with rfl | hrest
  · exact Or.inr (Or.inr (Or.inr rfl))
  rcases eq_or_ne x 0 with rfl | hx
  · have hy : y * t = 0 := by
      linear_combination h
    exact Or.inr (Or.inl ⟨rfl, (mul_eq_zero.mp hy).resolve_right hpos.ne'⟩)
  · have hproduct : x * y * t = -(x * x * (1 - t)) := by
      linear_combination x * h
    have hnegative : x * y * t < 0 := by
      rw [hproduct, neg_lt_zero]
      exact mul_pos (mul_self_pos.mpr hx) (sub_pos.mpr hrest)
    exact Or.inl (neg_of_mul_neg_left hnegative hpos.le)

/-- A point of the line through two points divides what is between them. -/
theorem exists_lerp_of_doubleArea (hab : a ≠ b) (hc : a.doubleArea b c = 0) :
    ∃ t : K, c = a.lerp b t := by
  rw [Vec2.doubleArea_eq] at hc
  by_cases hx : b.x - a.x = 0
  · have hy : b.y - a.y ≠ 0 := by
      intro hy
      exact hab (Vec2.ext (sub_eq_zero.mp hx).symm (sub_eq_zero.mp hy).symm)
    refine ⟨(c.y - a.y) / (b.y - a.y), Vec2.ext ?_ ?_⟩
    · refine mul_left_cancel₀ hy ?_
      rw [Vec2.lerp_x, hx, zero_mul, add_zero]
      linear_combination (c.y - a.y) * hx - hc
    · rw [Vec2.lerp_y, mul_div_cancel₀ _ hy]
      ring
  · refine ⟨(c.x - a.x) / (b.x - a.x), Vec2.ext ?_ ?_⟩
    · rw [Vec2.lerp_x, mul_div_cancel₀ _ hx]
      ring
    · refine mul_left_cancel₀ hx ?_
      rw [Vec2.lerp_y]
      field_simp
      linear_combination hc

theorem lerp_injective (hab : a ≠ b) {s t : K} (h : a.lerp b s = a.lerp b t) : s = t := by
  obtain ⟨hsx, hsy⟩ := Vec2.ext_iff.mp h
  rw [Vec2.lerp_x, Vec2.lerp_x] at hsx
  rw [Vec2.lerp_y, Vec2.lerp_y] at hsy
  have hx : (b.x - a.x) * (s - t) = 0 := by
    linear_combination hsx
  have hy : (b.y - a.y) * (s - t) = 0 := by
    linear_combination hsy
  rcases mul_eq_zero.mp hx with hx | hst
  · rcases mul_eq_zero.mp hy with hy | hst
    · exact absurd (Vec2.ext (sub_eq_zero.mp hx).symm (sub_eq_zero.mp hy).symm) hab
    · exact sub_eq_zero.mp hst
  · exact sub_eq_zero.mp hst

theorem lerp_lerp (a b : Vec2 K) (s t u : K) :
    (a.lerp b s).lerp (a.lerp b t) u = a.lerp b (s + (t - s) * u) := by
  ext
  · simp only [Vec2.lerp_x]
    ring
  · simp only [Vec2.lerp_y]
    ring

/-- Two segments along one line that share a point share an end of one of them. -/
theorem ends_of_collinear (hab : a ≠ b) (hc : a.doubleArea b c = 0) (hd : a.doubleArea b d = 0)
    (hp : a.OnSegment b p) (hp' : c.OnSegment d p) :
    a.OnSegment b c ∨ a.OnSegment b d ∨ c.OnSegment d a := by
  obtain ⟨s, rfl⟩ := exists_lerp_of_doubleArea hab hc
  obtain ⟨t, rfl⟩ := exists_lerp_of_doubleArea hab hd
  obtain ⟨u, hu, hu', rfl⟩ := hp
  obtain ⟨v, hv, hv', hcommon⟩ := hp'
  rw [lerp_lerp] at hcommon
  obtain rfl := lerp_injective hab hcommon
  by_cases hs : 0 ≤ s ∧ s ≤ 1
  · exact Or.inl ⟨s, hs.1, hs.2, rfl⟩
  by_cases ht : 0 ≤ t ∧ t ≤ 1
  · exact Or.inr (Or.inl ⟨t, ht.1, ht.2, rfl⟩)
  -- Neither end is on the first segment, so that they are on both sides of it.
  have hlow : min s t ≤ 0 := by
    have hmin := (min_le_lerp (a := s) (b := t) hv hv').trans hu'
    rcases lt_or_ge s 0 with hs' | hs'
    · exact min_le_iff.mpr (Or.inl hs'.le)
    · have hs'' : 1 < s := lt_of_not_ge fun h => hs ⟨hs', h⟩
      have ht' : t ≤ 1 := (min_le_iff.mp hmin).resolve_left hs''.not_ge
      exact min_le_iff.mpr (Or.inr (le_of_not_ge fun h => ht ⟨h, ht'⟩))
  have hhigh : 0 ≤ max s t := hu.trans (lerp_le_max hv hv')
  obtain ⟨w, hw, hw', hzero⟩ := exists_ratio hlow hhigh
  refine Or.inr (Or.inr ⟨w, hw, hw', ?_⟩)
  rw [lerp_lerp, ← hzero, Vec2.lerp_zero]

/-- If two segments share a point, the ends of each are on opposite sides of the other one, or an
end of one is on the other one. -/
theorem ends_of_common (hp : a.OnSegment b p) (hp' : c.OnSegment d p) :
    (a.doubleArea b c * a.doubleArea b d < 0 ∧ c.doubleArea d a * c.doubleArea d b < 0) ∨
      a.OnSegment b c ∨ a.OnSegment b d ∨ c.OnSegment d a ∨ c.OnSegment d b := by
  have ⟨u, hu, hu', hpu⟩ := hp
  have ⟨v, hv, hv', hpv⟩ := hp'
  have hcd := Vec2.doubleArea_of_onSegment hp
  rw [hpv, Vec2.doubleArea_lerp] at hcd
  have hab := Vec2.doubleArea_of_onSegment hp'
  rw [hpu, Vec2.doubleArea_lerp] at hab
  rcases sign_change hv hv' hcd with hopposite | ⟨hc, hd⟩ | rfl | rfl
  · rcases sign_change hu hu' hab with hopposite' | ⟨ha, hb⟩ | rfl | rfl
    · exact Or.inl ⟨hopposite, hopposite'⟩
    · have hne : c ≠ d := by
        rintro rfl
        exact absurd hopposite (mul_self_nonneg _).not_gt
      rcases ends_of_collinear hne ha hb hp' hp with h | h | h
      · exact Or.inr (Or.inr (Or.inr (Or.inl h)))
      · exact Or.inr (Or.inr (Or.inr (Or.inr h)))
      · exact Or.inr (Or.inl h)
    · rw [hpu, Vec2.lerp_zero] at hp'
      exact Or.inr (Or.inr (Or.inr (Or.inl hp')))
    · rw [hpu, Vec2.lerp_one] at hp'
      exact Or.inr (Or.inr (Or.inr (Or.inr hp')))
  · rcases eq_or_ne a b with rfl | hne
    · have hpoint : p = a := by
        rw [hpu]
        ext <;> simp
      rw [hpoint] at hp'
      exact Or.inr (Or.inr (Or.inr (Or.inl hp')))
    · rcases ends_of_collinear hne hc hd hp hp' with h | h | h
      · exact Or.inr (Or.inl h)
      · exact Or.inr (Or.inr (Or.inl h))
      · exact Or.inr (Or.inr (Or.inr (Or.inl h)))
  · rw [hpv, Vec2.lerp_zero] at hp
    exact Or.inr (Or.inl hp)
  · rw [hpv, Vec2.lerp_one] at hp
    exact Or.inr (Or.inr (Or.inl hp))

theorem segmentsTouch_iff_ends (a b c d : Vec2 K) :
    segmentsTouch a b c d = true ↔
      (a.doubleArea b c * a.doubleArea b d < 0 ∧ c.doubleArea d a * c.doubleArea d b < 0) ∨
        a.OnSegment b c ∨ a.OnSegment b d ∨ c.OnSegment d a ∨ c.OnSegment d b := by
  have harea : ∀ p q r : Vec2 K, (q - p).cross (r - p) = p.doubleArea q r := fun _ _ _ => rfl
  simp only [segmentsTouch, harea, Bool.if_true_left, Bool.or_eq_true, Bool.and_eq_true,
    beq_iff_eq, Scalar.literal_zero, oppositeSigns_iff, ← onSegment_iff, or_assoc, decide_eq_true_eq]

/-- The test decides whether two closed segments share a point, whatever their ends are. -/
theorem segmentsTouch_iff (a b c d : Vec2 K) :
    segmentsTouch a b c d = true ↔ ∃ p, a.OnSegment b p ∧ c.OnSegment d p := by
  rw [segmentsTouch_iff_ends]
  constructor
  · rintro (⟨h, h'⟩ | h | h | h | h)
    · exact exists_common_of_opposite h h'
    · exact ⟨c, h, c.onSegment_left d⟩
    · exact ⟨d, h, c.onSegment_right d⟩
    · exact ⟨a, a.onSegment_left b, h⟩
    · exact ⟨b, a.onSegment_right b, h⟩
  · rintro ⟨p, hp, hp'⟩
    exact ends_of_common hp hp'

end Common

end Penumbra
