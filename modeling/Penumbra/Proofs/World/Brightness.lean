import Mathlib.Data.Real.Basic
import Penumbra.Illumination
import Penumbra.Proofs.Geometry.Boxes
import Penumbra.Proofs.World.Notice

/-!
# The light at a point

The light at a point is summed over few lights: over those whose noted box overlaps a small box around
the point, in the coordinates of their tree.  No light that reaches the point is left out, however
far it reaches and however its tree and its entity are turned: the box that a tree noted contains the
disc of the light, and so it contains the point.

**Results**

* `World.shownLights`: all lights of a map that are switched on.
* `overlaps_of_near`: a light that reaches a point of a view is not left out.
* `lightColorAt_eq_sum`: the light at a point of a world, without boxes.
-/

namespace Penumbra

/-- The lights of a map that are switched on and that no container keeps in, tree by tree and place by
place. -/
def World.shownLights {K : Type} [Scalar K] (w : World K) (map : MapId) : List (LightEntry K) :=
  (w.treesOn map).flatMap fun t =>
    (t.lights.filter fun s => s.light.enabled && !s.light.containerOccluded).map fun s =>
      ⟨s.entity, s.light, t.pose.andThen s.pose⟩

/-- A query answers all shown lights of some kind if it never leaves one of them out. -/
theorem World.filter_index_lights {K : Type} [Scalar K] {w : World K} {map : MapId}
    {view : RotatedBox K} {p : LightEntry K → Bool}
    (hinTree : ∀ s ∈ w.lightSlots, s.inTree = s.light.addsToTree)
    (hkept : ∀ t ∈ w.trees, ∀ s ∈ t.lights,
      p ⟨s.entity, s.light, t.pose.andThen s.pose⟩ = true →
      s.bounds.intersects (view.transformed t.pose.inverseAffine) = true) :
    (w.index.lights map view).filter p = (w.shownLights map).filter p := by
  simp only [index, shownLights, treeLights, List.filter_flatMap, List.filter_map,
    List.filter_filter]
  refine List.flatMap_congr ?_
  intro t ht
  have htree : t ∈ w.trees := List.mem_of_mem_filter ht
  refine congrArg (List.map _) (List.filter_congr ?_)
  intro s hs
  have hshown : s.inTree = (s.light.enabled && !s.light.containerOccluded) :=
    hinTree s (mem_lightSlots.mpr ⟨t, htree, hs⟩)
  have hoverlaps := hkept t htree s hs
  rw [← hshown]
  simp only [Function.comp_apply]
  cases hp : p ⟨s.entity, s.light, t.pose.andThen s.pose⟩ with
  | false =>
      rfl
  | true =>
      rw [hoverlaps hp, Bool.and_true]

variable {K : Type} [ExactScalar K]

/-- In the coordinates of its tree, a light that reaches a point of a view has a box that overlaps the
box of the view. -/
theorem overlaps_of_near {t : Tree K} {s : LightSlot K} {view : RotatedBox K} {point : Vec2 K}
    (hbounds : s.bounds = (Circle.mk (s.pose.apply s.light.offset) s.light.radius).boundingBox)
    (hradius : 0 ≤ s.light.radius)
    (hnear : ((t.pose.andThen s.pose).apply s.light.offset).distanceSquared point ≤
      s.light.radius * s.light.radius)
    (hview : (view.transformed t.pose.inverseAffine).contains
      (t.pose.inverseAffine.apply point) = true) :
    s.bounds.intersects (view.transformed t.pose.inverseAffine) = true := by
  refine Box2.intersects_of_contains ?_ hview
  rw [hbounds]
  refine Circle.contains_boundingBox hradius ?_
  rwa [← t.pose.distanceSquared_apply, Pose.apply_inverseAffine, ← Pose.apply_andThen]

/-- The box around a point that lights are looked for in contains the point, however it is turned. -/
theorem contains_searched (m : Affine K) (point : Vec2 K) :
    ((RotatedBox.ofBox ((Box2.ofPoint point).enlarged searchRange)).transformed m).contains
      (m.apply point) = true := by
  let area : Box2 K := (Box2.ofPoint point).enlarged searchRange
  have hcorners : area.bottomLeft ∈ area.corners ∧ area.topRight ∈ area.corners := by
    simp [Box2.corners]
  have hmiddle : area.bottomLeft.OnSegment area.topRight point := by
    refine ⟨1 / 2, by norm_num, by norm_num, ?_⟩
    ext
    · simp only [area, Box2.bottomLeft, Box2.topRight, Box2.enlarged, Box2.ofPoint, Box2.ofCorners,
        Vec2.lerp_x]
      ring
    · simp only [area, Box2.bottomLeft, Box2.topRight, Box2.enlarged, Box2.ofPoint, Box2.ofCorners,
        Vec2.lerp_y]
      ring
  rw [RotatedBox.transformed, RotatedBox.corners_ofBox]
  exact Box2.contains_of_onSegment (Box2.contains_transformed hcorners.1 m)
    (Box2.contains_transformed hcorners.2 m) (m.onSegment_apply hmiddle)

/-- The light at each point of a world, reached by any actions, in which no update is queued and no
range is negative.  In exact scalars it is the sum over all lights of the map that are switched on,
that no container keeps in and that cast shadows, of which the point is in range and that nothing
stands before; no light is left out for the sake of a box. -/
theorem lightColorAt_eq_sum (actions : List (World.Action K))
    (hqueued : ∀ s ∈ ((World.empty : World K).run actions).1.lightSlots,
      s.light.updateQueued = false)
    (hradius : ∀ s ∈ ((World.empty : World K).run actions).1.lightSlots, 0 ≤ s.light.radius)
    (map : MapId) (point : Vec2 K) :
    let w := ((World.empty : World K).run actions).1
    lightColorAt w.index map point =
      ((w.shownLights map).filter fun e =>
          e.light.castShadows &&
            decide (e.position.distanceSquared point ≤ e.light.radius * e.light.radius) &&
            !isOccluded w.index map e.position point).foldl
        (fun total e => total + e.light.color.scaled (e.light.energy *
          attenuation (e.position.distanceSquared point) e.light.radius e.light.falloff
            e.light.curveFactor))
        Color.transparent := by
  intro w
  have hnoticed : ∀ s ∈ w.lightSlots, s.inTree = s.light.addsToTree ∧
      s.bounds = (Circle.mk (s.pose.apply s.light.offset) s.light.radius).boundingBox :=
    fun s hs => World.noticed_run actions s hs (hqueued s hs)
  have hreaches : reaches w.index map point = fun e =>
      e.light.castShadows &&
        decide (e.position.distanceSquared point ≤ e.light.radius * e.light.radius) &&
        !isOccluded w.index map e.position point := by
    funext e
    simp only [reaches, ← not_lt, decide_not]
  have hlights : lightsReaching w.index map point =
      (w.shownLights map).filter (reaches w.index map point) := by
    refine World.filter_index_lights (fun s hs => (hnoticed s hs).1) ?_
    intro t ht s hs hpoint
    have hslot : s ∈ w.lightSlots := World.mem_lightSlots.mpr ⟨t, ht, hs⟩
    simp only [hreaches, Bool.and_eq_true, decide_eq_true_eq] at hpoint
    obtain ⟨⟨-, hnear⟩, -⟩ := hpoint
    exact overlaps_of_near (hnoticed s hslot).2 (hradius s hslot) hnear (contains_searched _ point)
  rw [lightColorAt, hlights, hreaches]
  rfl

/-- A lamp with a long range, and where it stands in its tree. -/
noncomputable def lamp : Light ℝ := { Light.standard with radius := 60 }

noncomputable def lampPose : Pose ℝ := Pose.ofPosition ⟨40, 0⟩

/-- The tree is turned, and the lamp far beyond the small box around the origin. -/
noncomputable def turnedLamp : List (World.Action ℝ) :=
  [.addTree ⟨1⟩ ⟨Vec2.zero, 1⟩, .spawnLight ⟨0⟩ lampPose lamp]

noncomputable def lampEntry : LightEntry ℝ := ⟨⟨1⟩, lamp, (Pose.mk Vec2.zero 1).andThen lampPose⟩

theorem distanceSquared_lampEntry : lampEntry.position.distanceSquared Vec2.zero = 1600 := by
  have hcenter : (Pose.mk (Vec2.zero : Vec2 ℝ) 1).apply Vec2.zero = Vec2.zero := by
    ext <;> simp [Vec2.zero]
  calc lampEntry.position.distanceSquared Vec2.zero
      = ((Pose.mk (Vec2.zero : Vec2 ℝ) 1).apply (lampPose.apply Vec2.zero)).distanceSquared
          ((Pose.mk (Vec2.zero : Vec2 ℝ) 1).apply Vec2.zero) := by
        rw [hcenter, ← Pose.apply_andThen]
        rfl
    _ = (lampPose.apply Vec2.zero).distanceSquared Vec2.zero := Pose.distanceSquared_apply _ _ _
    _ = 1600 := by
        norm_num [Vec2.distanceSquared, Vec2.lengthSquared, lampPose, Pose.ofPosition, Vec2.zero]

/-- It lights the origin all the same. -/
theorem lightColorAt_eq_sum_turnedLamp :
    let w := ((World.empty : World ℝ).run turnedLamp).1
    (∀ s ∈ w.lightSlots, s.light.updateQueued = false) ∧
      (∀ s ∈ w.lightSlots, 0 ≤ s.light.radius) ∧
      lightColorAt w.index ⟨1⟩ Vec2.zero =
        Color.transparent + Color.white.scaled (1.0 * attenuation 1600 60 6.8 0.0) := by
  intro w
  have hslots : w.lightSlots = [LightSlot.new ⟨1⟩ lampPose lamp] := rfl
  have hshown : w.shownLights ⟨1⟩ = [lampEntry] := rfl
  have hwalls : isOccluded w.index ⟨1⟩ lampEntry.position Vec2.zero = false := rfl
  have hqueued : ∀ s ∈ w.lightSlots, s.light.updateQueued = false := by
    rw [hslots]
    simp [LightSlot.new, LightSlot.refresh]
  have hradius : ∀ s ∈ w.lightSlots, 0 ≤ s.light.radius := by
    rw [hslots]
    simp [LightSlot.new, LightSlot.refresh, lamp]
  have hreached : (lampEntry.light.castShadows &&
      decide (lampEntry.position.distanceSquared Vec2.zero ≤
        lampEntry.light.radius * lampEntry.light.radius) &&
      !isOccluded w.index ⟨1⟩ lampEntry.position Vec2.zero) = true := by
    rw [hwalls, distanceSquared_lampEntry]
    norm_num [lampEntry, lamp, Light.standard]
  refine ⟨hqueued, hradius, (lightColorAt_eq_sum turnedLamp hqueued hradius ⟨1⟩ Vec2.zero).trans ?_⟩
  change List.foldl _ _ (List.filter _ (w.shownLights ⟨1⟩)) = _
  rw [hshown, List.filter_cons, if_pos hreached, List.filter_nil, List.foldl_cons, List.foldl_nil,
    distanceSquared_lampEntry]
  rfl

end Penumbra
