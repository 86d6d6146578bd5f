import Mathlib
import Penumbra.Proofs.Camera
import Penumbra.Proofs.Frame.LightQuads
import Penumbra.Proofs.Geometry.Boxes

/-!
# The footprint of a light

A light reaches the points of a disc.  On the light map, which may be turned against the world,
mirrored and scaled differently along its axes, these points make an ellipse.  The footprint of the
light is computed from the scales alone; in exact scalars it is the smallest box around the ellipse,
because a disc that is turned stays a disc.

**Results**

* `LightFrame.image_eq`: where a point comes to lie on the light map, seen from the light.
* `LightFrame.within_iff_contains_images`: the footprint is the smallest box around the ellipse.
* `LightFrame.apply_targetToEye`: from the light map to the world and back.
* `LightFrame.lightQuad_covers`: nothing that a light reaches is cut off.
-/

namespace Penumbra

variable {K : Type} [ExactScalar K]

/-- A viewport and an eye that show an area upright: there are pixels, and factors are positive. -/
structure Viewport.ShowsUpright (v : Viewport K) (e : Eye K) : Prop where
  width : 1 ≤ v.size.width
  height : 1 ≤ v.size.height
  renderScale : 0 < v.renderScale.x ∧ 0 < v.renderScale.y
  zoom : 0 < e.zoom.x ∧ 0 < e.zoom.y

/-- Whether a light reaches a point of the world around the eye. -/
def PointLight.Reaches (light : PointLight K) (p : Vec2 K) : Prop :=
  p.distanceSquared light.position ≤ light.range * light.range

namespace LightFrame

/-- The part of the plane of the light map that a light may reach, light map or not. -/
def reach (f : LightFrame K) (light : PointLight K) : Box2 K :=
  Box2.around (f.eyeToTarget.apply light.position) (f.footprintScale.scale light.range)

/-- Pixels of a light map to a world unit, along each of its axes. -/
def pixelScale (v : Viewport K) (e : Eye K) (size : PixelSize) : Vec2 K :=
  v.clipScale e * (size.toVec2 (K := K)).scale 0.5

section Images

variable {v : Viewport K} {e : Eye K} {size : PixelSize} {light : PointLight K}

theorem pixelScale_pos (h : v.ShowsUpright e) (hwidth : 1 ≤ size.width)
    (hheight : 1 ≤ size.height) :
    0 < (pixelScale v e size).x ∧ 0 < (pixelScale v e size).y := by
  have hliterals : (32.0 : K) = 32 ∧ (2.0 : K) = 2 ∧ (0.5 : K) = 1 / 2 := by
    norm_num
  have hpositive : ∀ {n : Nat}, 1 ≤ n → (0 : K) < n := Nat.cast_pos.mpr
  have hfactor : ∀ {zoom scale : K} {n m : Nat}, 0 < zoom → 0 < scale → 1 ≤ n → 1 ≤ m →
      0 < 1.0 / zoom * scale * (32.0 * 2.0) / (n : K) * ((m : K) * 0.5) := by
    intro zoom scale n m hzoom hscale hn hm
    rw [hliterals.1, hliterals.2.1, hliterals.2.2, Scalar.literal_one]
    have := hpositive hn
    have := hpositive hm
    positivity
  exact ⟨hfactor h.zoom.1 h.renderScale.1 h.width hwidth,
    hfactor h.zoom.2 h.renderScale.2 h.height hheight⟩

/-- A point of the world on the light map, seen from a light: turned back, scaled and mirrored. -/
theorem image_eq (light : PointLight K) (p : Vec2 K) :
    let center := (v.eyeToTarget e size).apply light.position
    let turned := (p - light.position).rotated (-e.rotation)
    (v.eyeToTarget e size).apply p =
      ⟨center.x + (pixelScale v e size).x * turned.x,
        center.y - (pixelScale v e size).y * turned.y⟩ := by
  intro center turned
  simp only [center, turned, v.eyeToTarget_apply_size e size, v.eyeToClip_apply e, pixelScale]
  ext
  · simp only [Vec2.add_x, Vec2.mul_x, Vec2.rotated_x, Vec2.sub_x, Vec2.sub_y]
    ring
  · simp only [Vec2.add_y, Vec2.mul_y, Vec2.rotated_y, Vec2.sub_x, Vec2.sub_y]
    ring

theorem reach_eq :
    let center := (v.eyeToTarget e size).apply light.position
    let extent := (pixelScale v e size).scale light.range
    (new v e size).reach light =
      ⟨center.x - extent.x, center.y - extent.y, center.x + extent.x, center.y + extent.y⟩ := by
  intro center extent
  have hextent : ((new v e size).footprintScale.scale light.range).scale 0.5 = extent := by
    ext
    · change (v.clipScale e).x * (size.width : K) * light.range * 0.5 =
        (v.clipScale e).x * ((size.width : K) * 0.5) * light.range
      ring
    · change (v.clipScale e).y * (size.height : K) * light.range * 0.5 =
        (v.clipScale e).y * ((size.height : K) * 0.5) * light.range
      ring
  rw [reach, Box2.around, hextent]
  rfl

/-- What a light reaches lies in its footprint. -/
theorem contains_reach (h : v.ShowsUpright e) (hwidth : 1 ≤ size.width) (hheight : 1 ≤ size.height)
    (hrange : 0 < light.range) {p : Vec2 K} (hp : light.Reaches p) :
    ((new v e size).reach light).contains ((new v e size).eyeToTarget.apply p) = true := by
  obtain ⟨hx, hy⟩ := pixelScale_pos h hwidth hheight
  have hturned : ((p - light.position).rotated (-e.rotation)).lengthSquared ≤
      light.range * light.range := by
    rw [Vec2.lengthSquared_rotated]
    exact hp
  have habs := Circle.abs_le_of_square_le hrange.le
    (le_of_add_le_of_nonneg_left hturned (mul_self_nonneg _))
  have habs' := Circle.abs_le_of_square_le hrange.le
    (le_of_add_le_of_nonneg_right hturned (mul_self_nonneg _))
  obtain ⟨hlow, hhigh⟩ := abs_le.mp habs
  obtain ⟨hlow', hhigh'⟩ := abs_le.mp habs'
  have himage : (new v e size).eyeToTarget.apply p = _ := image_eq light p
  rw [reach_eq, himage, Box2.contains_iff]
  simp only [Vec2.scale]
  have hleft := mul_le_mul_of_nonneg_left hlow hx.le
  have hright := mul_le_mul_of_nonneg_left hhigh hx.le
  have hbottom := mul_le_mul_of_nonneg_left hhigh' hy.le
  have htop := mul_le_mul_of_nonneg_left hlow' hy.le
  rw [mul_neg] at hleft htop
  exact ⟨⟨by linarith, by linarith⟩, by linarith, by linarith⟩

/-- The point of the world that is some way to the side of a light in the picture. -/
def beside (e : Eye K) (light : PointLight K) (offset : Vec2 K) : Vec2 K :=
  light.position + offset.rotated e.rotation

theorem reaches_beside {offset : Vec2 K} (h : offset.lengthSquared = light.range * light.range) :
    light.Reaches (beside e light offset) := by
  have hoffset : beside e light offset - light.position = offset.rotated e.rotation := by
    ext <;> simp [beside]
  rw [PointLight.Reaches, Vec2.distanceSquared, hoffset, Vec2.lengthSquared_rotated, h]

theorem image_beside (offset : Vec2 K) :
    let center := (v.eyeToTarget e size).apply light.position
    (v.eyeToTarget e size).apply (beside e light offset) =
      ⟨center.x + (pixelScale v e size).x * offset.x,
        center.y - (pixelScale v e size).y * offset.y⟩ := by
  intro center
  have hoffset : beside e light offset - light.position = offset.rotated e.rotation := by
    ext <;> simp [beside]
  rw [image_eq light, hoffset, Vec2.rotated_rotated_neg]

/-- The footprint of a light is the smallest box around the images of the points that it reaches. -/
theorem within_iff_contains_images (h : v.ShowsUpright e) (hwidth : 1 ≤ size.width)
    (hheight : 1 ≤ size.height) (hrange : 0 < light.range) {box : Box2 K} :
    ((new v e size).reach light).Within box ↔
      ∀ p, light.Reaches p → box.contains ((new v e size).eyeToTarget.apply p) = true := by
  constructor
  · intro hwithin p hp
    have hcontains := contains_reach h hwidth hheight hrange hp
    rw [Box2.contains_iff] at hcontains ⊢
    exact ⟨⟨hwithin.left.trans hcontains.1.1, hcontains.1.2.trans hwithin.right⟩,
      hwithin.bottom.trans hcontains.2.1, hcontains.2.2.trans hwithin.top⟩
  · intro hall
    -- The sides touch the ellipse where the light ends to the left, right, above and below.
    have hside : ∀ offset : Vec2 K, offset.lengthSquared = light.range * light.range →
        box.contains ((v.eyeToTarget e size).apply (beside e light offset)) = true :=
      fun offset hoffset => hall _ (reaches_beside hoffset)
    have hleft := hside ⟨-light.range, 0⟩ (by simp [Vec2.lengthSquared])
    have hright := hside ⟨light.range, 0⟩ (by simp [Vec2.lengthSquared])
    have hbottom := hside ⟨0, light.range⟩ (by simp [Vec2.lengthSquared])
    have htop := hside ⟨0, -light.range⟩ (by simp [Vec2.lengthSquared])
    rw [image_beside, Box2.contains_iff] at hleft hright hbottom htop
    rw [reach_eq]
    refine ⟨?_, ?_, ?_, ?_⟩
    · simpa [Vec2.scale, ← sub_eq_add_neg] using hleft.1.1
    · simpa [Vec2.scale] using hbottom.2.1
    · simpa [Vec2.scale] using hright.1.2
    · simpa [Vec2.scale] using htop.2.2

theorem det_eyeToTarget :
    (v.eyeToTarget e size).det = -((pixelScale v e size).x * (pixelScale v e size).y) := by
  have hturn := Scalar.cos_sq_add_sin_sq e.rotation
  simp only [Affine.det, Viewport.eyeToTarget, Viewport.eyeToClip, Affine.compose, Affine.linear,
    Affine.shift, Affine.scaling, Affine.rotation, Affine.rotationTranslation, Vec2.scale,
    Scalar.literal_zero, Scalar.literal_one, Scalar.cos_neg, Scalar.sin_neg, pixelScale,
    Vec2.mul_x, Vec2.mul_y]
  linear_combination
    (-(v.clipScale e).x * (size.toVec2 (K := K)).x * 0.5 *
      ((v.clipScale e).y * (size.toVec2 (K := K)).y * 0.5)) * hturn

/-- From the light map to the world and back. -/
theorem apply_targetToEye (h : v.ShowsUpright e) (hwidth : 1 ≤ size.width)
    (hheight : 1 ≤ size.height) (pixel : Vec2 K) :
    (new v e size).eyeToTarget.apply ((new v e size).targetToEye.apply pixel) = pixel := by
  obtain ⟨hx, hy⟩ := pixelScale_pos h hwidth hheight
  refine Affine.apply_inverse ?_ pixel
  have hdet : (new v e size).eyeToTarget.det = _ := det_eyeToTarget
  rw [hdet]
  exact neg_ne_zero.mpr (mul_pos hx hy).ne'

/-- The footprint of a light with a range has an area. -/
theorem reach_area (h : v.ShowsUpright e) (hwidth : 1 ≤ size.width) (hheight : 1 ≤ size.height)
    (hrange : 0 < light.range) :
    ((new v e size).reach light).left < ((new v e size).reach light).right ∧
      ((new v e size).reach light).bottom < ((new v e size).reach light).top := by
  obtain ⟨hx, hy⟩ := pixelScale_pos h hwidth hheight
  have hacross := mul_pos hx hrange
  have halong := mul_pos hy hrange
  rw [reach_eq]
  simp only [Vec2.scale]
  exact ⟨by linarith, by linarith⟩

/-- A light that reaches a point inside the light map is drawn there. -/
theorem exists_lightQuad (h : v.ShowsUpright e) (hwidth : 1 ≤ size.width ∧ size.width ≤ maxPixels)
    (hheight : 1 ≤ size.height ∧ size.height ≤ maxPixels) (hrange : 0 < light.range)
    (shadowRowV : K) {p q : Vec2 K} (hp : light.Reaches p)
    (hq : (new v e size).eyeToTarget.apply p = q)
    (hinside : (0 < q.x ∧ q.x < size.width) ∧ 0 < q.y ∧ q.y < size.height) :
    ∃ (quad : LightQuad K) (scissor : ScissorRect) (box : Box2 K),
      (new v e size).lightQuad? light shadowRowV = some (quad, scissor) ∧
        quad.vertices.map (·.position) = box.corners ∧
          box.contains q = true ∧ scissor.box.contains q = true := by
  have hreach : ((new v e size).reach light).contains q = true := by
    rw [← hq]
    exact contains_reach h hwidth.1 hheight.1 hrange hp
  have hbox : size.box = (⟨0, 0, size.width, size.height⟩ : Box2 K) := by
    rw [PixelSize.box, Scalar.literal_zero]
    rfl
  have hfootprint : (new v e size).footprint light = ((new v e size).reach light).intersect
      ⟨0, 0, size.width, size.height⟩ := by
    rw [← hbox]
    rfl
  have hpart : ((new v e size).footprint light).isEmpty = false := by
    rw [hfootprint]
    exact Box2.isEmpty_intersect_of_inside (reach_area h hwidth.1 hheight.1 hrange) hreach hinside
  have hcontains : ((new v e size).footprint light).contains q = true := by
    rw [hfootprint]
    refine Box2.contains_intersect hreach (Box2.contains_iff.mpr ?_)
    exact ⟨⟨hinside.1.1.le, hinside.1.2.le⟩, hinside.2.1.le, hinside.2.2.le⟩
  have hdrawn := drawn_footprint hwidth.2 hheight.2 hpart
  exact ⟨_, _, _, lightQuad?_eq_some_iff.mpr ⟨hpart, rfl, rfl⟩, rfl, hcontains,
    hdrawn.contains_scissor hcontains⟩

end Images

/--
**Quads of lights cover what the lights reach.**  In exact scalars, for each viewport and eye that
are not mirrored, each light map with sides that 32 bits can hold, and each light with a range: a
point that the light reaches and that lies inside the light map lies in the quad and in the scissor;
the light is left out exactly when no box with an area is a part of both its footprint and the light
map, where the footprint is the smallest box around what the light reaches; and the corners of the
quad know the world points that lie there.
-/
theorem lightQuad_covers (v : Viewport K) (e : Eye K) (size : PixelSize) (light : PointLight K)
    (shadowRowV : K) (hshows : v.ShowsUpright e)
    (hwidth : 1 ≤ size.width ∧ size.width ≤ maxPixels)
    (hheight : 1 ≤ size.height ∧ size.height ≤ maxPixels) (hrange : 0 < light.range) :
    let frame := LightFrame.new v e size
    let image := frame.eyeToTarget.apply
    (∀ p, light.Reaches p →
      ((0 < (image p).x ∧ (image p).x < size.width) ∧
        0 < (image p).y ∧ (image p).y < size.height) →
      ∃ (quad : LightQuad K) (scissor : ScissorRect) (box : Box2 K),
        frame.lightQuad? light shadowRowV = some (quad, scissor) ∧
          quad.vertices.map (·.position) = box.corners ∧
            box.contains (image p) = true ∧ scissor.box.contains (image p) = true) ∧
    (frame.lightQuad? light shadowRowV = none ↔
      ¬∃ part : Box2 K, part.left < part.right ∧ part.bottom < part.top ∧
        part.Within (frame.reach light) ∧ part.Within size.box) ∧
    (∀ box : Box2 K, (frame.reach light).Within box ↔
      ∀ p, light.Reaches p → box.contains (image p) = true) ∧
    ∀ quad scissor, frame.lightQuad? light shadowRowV = some (quad, scissor) →
      ∀ vertex ∈ quad.vertices, image vertex.world = vertex.position := by
  intro frame image
  refine ⟨?_, ?_, ?_, ?_⟩
  · intro p hp hinside
    exact exists_lightQuad hshows hwidth hheight hrange shadowRowV hp rfl hinside
  · rw [lightQuad?_eq_none_iff]
    exact Box2.isEmpty_intersect_iff
  · intro box
    exact within_iff_contains_images hshows hwidth.1 hheight.1 hrange
  · intro quad scissor h vertex hvertex
    obtain ⟨-, rfl, -⟩ := lightQuad?_eq_some_iff.mp h
    simp only [LightQuad.vertices, quadOf, List.mem_cons, List.not_mem_nil, or_false] at hvertex
    rcases hvertex with rfl | rfl | rfl | rfl <;>
      exact apply_targetToEye hshows hwidth.1 hheight.1 _

/-- The turned eye without its mirrored axis. -/
noncomputable def uprightEye : Eye ℝ := { Viewport.turnedEye with zoom := Vec2.one }

noncomputable def lightAtEye : PointLight ℝ where
  color := Color.black
  position := ⟨0, 0⟩
  range := 1
  power := 1
  softness := 1
  angle := 0
  maskUv := Box2.zero
  distanceSquared := 0
  castsShadows := false
  shadowRow := 0

theorem lightQuad_covers_lightAtEye :
    let image := (new Viewport.halvedPicture uprightEye ⟨320, 240⟩).eyeToTarget.apply ⟨0, 0⟩
    Viewport.halvedPicture.ShowsUpright uprightEye ∧ lightAtEye.Reaches ⟨0, 0⟩ ∧
      image = ⟨160, 120⟩ ∧
      ∃ (quad : LightQuad ℝ) (scissor : ScissorRect) (box : Box2 ℝ),
        (new Viewport.halvedPicture uprightEye ⟨320, 240⟩).lightQuad? lightAtEye 0 =
            some (quad, scissor) ∧
          quad.vertices.map (·.position) = box.corners ∧
            box.contains image = true ∧ scissor.box.contains image = true := by
  intro image
  have hshows : Viewport.halvedPicture.ShowsUpright uprightEye := by
    constructor <;> norm_num [Viewport.halvedPicture, uprightEye, Vec2.one]
  have hreaches : lightAtEye.Reaches ⟨0, 0⟩ := by
    simp [PointLight.Reaches, lightAtEye, Vec2.distanceSquared, Vec2.lengthSquared]
  have himage : image = ⟨160, 120⟩ := by
    have hhalf : image = (PixelSize.toVec2 ⟨320, 240⟩).scale 0.5 := by
      refine (Viewport.eyeToTarget_apply_size _ _ _ _).trans ?_
      rw [Viewport.eyeToClip_apply]
      ext <;> simp
    rw [hhalf]
    ext <;> norm_num [PixelSize.toVec2, Vec2.scale, Scalar.ofNat]
  have hinside : ((0 < image.x ∧ image.x < (320 : Nat)) ∧ 0 < image.y ∧ image.y < (240 : Nat)) := by
    rw [himage]
    norm_num
  exact ⟨hshows, hreaches, himage, (lightQuad_covers Viewport.halvedPicture uprightEye ⟨320, 240⟩
    lightAtEye 0 hshows ⟨by decide, by decide⟩ ⟨by decide, by decide⟩
    (by norm_num [lightAtEye])).1 ⟨0, 0⟩ hreaches hinside⟩

end LightFrame
end Penumbra
