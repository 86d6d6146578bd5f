import Penumbra.Proofs.Frame.Faultless
import Penumbra.Proofs.Frame.Scene
import Penumbra.Proofs.Geometry.LeastBoxes

/-!
# Where walls may cast shadows into the picture

Walls are looked for in the box around the picture, extended by the place of each light of the frame.
It is the smallest box for that, in whatever order the lights come.  The boxes that it goes back to
and is compared with are the smallest ones as well: those around turned boxes, and those around the
images of boxes and of turned boxes.

**Results**

* `ordered_or_lights_eq_nil`: a frame has lights only when the sides of the picture are in order.
* `hull_expandedBounds`, `leastOver_expandedBounds`: the box around the picture and the lights.
* `beq_expandedBounds`: the order of the lights does not matter.
* `bounds_least`: the smallest boxes of this library.
-/

namespace Penumbra

variable {K : Type} [Scalar K] {index : SpatialIndex K} {query : LightQuery K} {masks : MaskAtlas K}
  {s : LightSelection K}

/-- The places of the lights of a frame on the map, computed from their places relative to the eye. -/
def LightSelection.places (s : LightSelection K) (eye : Eye K) : List (Vec2 K) :=
  s.lights.map fun light => light.position + eye.position

/-- The choice of lights does not fail while the sides of the picture are in order. -/
theorem exists_selection [TotallyOrdered K] (index : SpatialIndex K) (masks : MaskAtlas K)
    (hbox : query.worldAabb.Ordered) : ∃ s, selectLights index query masks = .ok s := by
  have htake := takeReaching_eq hbox query.limits.maxLights
    (index.lights query.eye.map query.worldBounds)
  simp only [selectLights, htake, bind, Except.bind, check_ofReaching]
  exact ⟨_, rfl⟩

/-- Without an ordered box to compare them with, a frame has no lights. -/
theorem ordered_or_lights_eq_nil (h : selectLights index query masks = .ok s) :
    query.worldAabb.Ordered ∨ s.lights = [] := by
  by_cases hbox : query.worldAabb.Ordered
  · exact Or.inl hbox
  · obtain ⟨taken, htaken, rfl, -⟩ := exists_taken h
    obtain rfl := eq_nil_of_not_ordered hbox htaken
    exact Or.inr rfl

theorem expandedBounds_eq (h : selectLights index query masks = .ok s) :
    s.expandedBounds = (s.places query.eye).foldl Box2.extend query.worldAabb := by
  obtain ⟨taken, -, rfl, -⟩ := exists_taken h
  rw [LightSelection.places, List.foldl_map]
  rfl

variable [OrderedScalar K]

/-- A box that is extended by places in some order is made of them and of the corners of the box. -/
theorem hull_extended (hbox : query.worldAabb.Ordered) (places : List (Vec2 K)) :
    (places.foldl Box2.extend query.worldAabb).Hull (query.worldAabb.corners ++ places) :=
  (Box2.hull_corners hbox).foldl_extend places

theorem leastOver_expandedBounds (h : selectLights index query masks = .ok s)
    (hnumeric : ∀ p ∈ s.places query.eye, p.Numeric) :
    s.expandedBounds.LeastOver query.worldAabb (s.places query.eye) := by
  rw [expandedBounds_eq h]
  rcases ordered_or_lights_eq_nil h with hbox | hnone
  · exact (hull_extended hbox _).leastOver hbox hnumeric
  · have hplaces : s.places query.eye = [] := by
      rw [LightSelection.places, hnone, List.map_nil]
    rw [hplaces]
    exact
      { base_partOf := Box2.PartOf.refl _
        contains := fun _ hp => absurd hp List.not_mem_nil
        least := fun _ houter _ => houter }

/-- Extending the box of the picture by the same places in another order makes the same box. -/
theorem beq_expandedBounds (h : selectLights index query masks = .ok s)
    (hbox : query.worldAabb.Numeric) (hnumeric : ∀ p ∈ s.places query.eye, p.Numeric)
    {places : List (Vec2 K)} (hsame : ∀ p, p ∈ places ↔ p ∈ s.places query.eye) :
    (places.foldl Box2.extend query.worldAabb == s.expandedBounds) = true := by
  rcases ordered_or_lights_eq_nil h with hordered | hnone
  · have hleast := (hull_extended hordered places).leastOver hordered
      fun p hp => hnumeric p ((hsame p).mp hp)
    exact hleast.beq hordered (leastOver_expandedBounds h hnumeric) hsame
  · have hplaces : s.places query.eye = [] := by
      rw [LightSelection.places, hnone, List.map_nil]
    have hplaces' : places = [] := by
      rw [List.eq_nil_iff_forall_not_mem]
      intro p hp
      rw [hsame, hplaces] at hp
      cases hp
    rw [expandedBounds_eq h, hplaces, hplaces', Box2.beq_eq_true_iff]
    exact ⟨⟨hbox.left, hbox.right⟩, hbox.bottom, hbox.top⟩

/-- What the box that a frame looks for walls in is to the picture and to the lights. -/
structure LightSelection.LeastBounds (query : LightQuery K) (s : LightSelection K) : Prop where
  least : s.expandedBounds.LeastOver query.worldAabb (s.places query.eye)
  ordered : query.worldAabb.Ordered → s.expandedBounds.Ordered
  any_order : query.worldAabb.Numeric → ∀ places : List (Vec2 K),
    places.Perm (s.places query.eye) →
      (places.foldl Box2.extend query.worldAabb == s.expandedBounds) = true
  /-- Other frames with the same picture and lights at the same places look in the same box. -/
  same_places : query.worldAabb.Numeric →
    ∀ (index' : SpatialIndex K) (query' : LightQuery K) (masks' : MaskAtlas K)
      (s' : LightSelection K),
      selectLights index' query' masks' = .ok s' → query'.worldAabb = query.worldAabb →
      (∀ p, p ∈ s'.places query'.eye ↔ p ∈ s.places query.eye) →
        (s'.expandedBounds == s.expandedBounds) = true

theorem leastBounds_of_numeric (h : selectLights index query masks = .ok s)
    (hnumeric : ∀ p ∈ s.places query.eye, p.Numeric) : s.LeastBounds query where
  least := leastOver_expandedBounds h hnumeric
  ordered hordered := hordered.of_partOf (leastOver_expandedBounds h hnumeric).base_partOf
  any_order hbox _ hperm := beq_expandedBounds h hbox hnumeric fun _ => hperm.mem_iff
  same_places hbox index' query' masks' s' h' hpicture hsame := by
    rw [expandedBounds_eq h', hpicture]
    exact beq_expandedBounds h hbox hnumeric hsame

/-- The corners of a box are some points, wherever they are taken to. -/
theorem leastAround_corners (b : Box2 K) (f : Vec2 K → Vec2 K) :
    (Box2.boundsOf (b.corners.map f)).LeastAround (b.corners.map f) := by
  refine Box2.leastAround_boundsOf ?_
  simp [Box2.corners]

/--
**Smallest boxes.**  The box around points is the smallest one, and so are the boxes around turned
boxes and around the images of boxes and of turned boxes.  The box that a frame looks for walls in is
the smallest one around the picture and the lights of the frame, and it is the same box whatever the
order of the lights is.
-/
theorem bounds_least :
    (∀ points : List (Vec2 Float32), points ≠ [] → (Box2.boundsOf points).LeastAround points) ∧
      (∀ (b : Box2 Float32) (m : Affine Float32),
        (b.transformed m).LeastAround (b.corners.map m.apply)) ∧
      (∀ r : RotatedBox Float32, r.boundingBox.LeastAround r.corners) ∧
      (∀ (r : RotatedBox Float32) (m : Affine Float32),
        (r.transformed m).LeastAround (r.corners.map m.apply)) ∧
      ∀ (index : SpatialIndex Float32) (query : LightQuery Float32) (masks : MaskAtlas Float32),
        (query.worldAabb.Ordered → ∃ s, selectLights index query masks = .ok s) ∧
          ∀ s, selectLights index query masks = .ok s →
            (∀ p ∈ s.places query.eye, p.Numeric) → s.LeastBounds query := by
  refine ⟨?_, ?_, ?_, ?_, ?_⟩
  · intro points hpoints
    exact Box2.leastAround_boundsOf hpoints
  · intro b m
    exact leastAround_corners b m.apply
  · intro r
    exact leastAround_corners r.bounds r.turn
  · intro r m
    rw [RotatedBox.transformed, RotatedBox.corners, List.map_map]
    exact leastAround_corners r.bounds (m.apply ∘ r.turn)
  · intro index query masks
    exact ⟨exists_selection index masks, fun s => leastBounds_of_numeric⟩

/-- Points of which the first one has no number across, and the last one none along. -/
def strayPoints : List (Vec2 Float32) := [⟨0.0 / 0.0, 1.0⟩, ⟨2.0, -1.0⟩, ⟨0.5, 0.0 / 0.0⟩]

/-- Two lights that stand beside the picture and reach into it. -/
def besideLights : SpatialIndex Float32 where
  lights _ _ :=
    [⟨⟨1⟩, Light.standard, Pose.ofPosition ⟨12.0, 0.0⟩⟩,
      ⟨⟨2⟩, Light.standard, Pose.ofPosition ⟨0.0, -11.0⟩⟩]
  occluders _ _ := []

/-- The stray coordinates are passed over, and the picture is extended to the right and downwards. -/
theorem bounds_least_strayPoints :
    (strayPoints ≠ [] ∧ (Box2.boundsOf strayPoints == ⟨0.5, -1.0, 2.0, 1.0⟩) = true ∧
        (Box2.boundsOf strayPoints).LeastAround strayPoints) ∧
      twoRows.worldAabb.Ordered ∧
        ∃ s, selectLights besideLights twoRows MaskAtlas.empty = .ok s ∧
          (∀ p ∈ s.places twoRows.eye, p.Numeric) ∧
          (s.expandedBounds == ⟨-10.0, -11.0, 12.0, 10.0⟩) = true ∧ s.LeastBounds twoRows := by
  obtain ⟨hpoints, -, -, -, hframe⟩ := bounds_least
  have hsome : strayPoints ≠ [] := List.cons_ne_nil _ _
  have hbox : twoRows.worldAabb.Ordered := ⟨by decide, by decide⟩
  obtain ⟨hexists, hleast⟩ := hframe besideLights twoRows MaskAtlas.empty
  obtain ⟨s, hs⟩ := hexists hbox
  have hcomputed : (selectLights besideLights twoRows MaskAtlas.empty).toOption.any (fun s =>
      decide (∀ p ∈ s.places twoRows.eye, p.Numeric) &&
        s.expandedBounds == ⟨-10.0, -11.0, 12.0, 10.0⟩) = true := by
    decide +kernel
  rw [hs] at hcomputed
  obtain ⟨hnumeric, hbounds⟩ := (Bool.and_eq_true _ _).mp hcomputed
  have hnumeric := of_decide_eq_true hnumeric
  exact ⟨⟨hsome, by decide +kernel, hpoints strayPoints hsome⟩, hbox, s, hs, hnumeric, hbounds,
    hleast s hs hnumeric⟩

end Penumbra
