import Mathlib.Data.Rat.Cast.OfScientific
import Mathlib.Tactic.FieldSimp
import Penumbra.Camera
import Penumbra.Proofs.Geometry.Motions

/-!
# The paths between picture and world

Pixels are led to the world, the world around the eye to clip space and to the pixels of a target,
and clip space back to the world, each by a formula of its own.  In exact scalars they agree: each
of them is a turn by the rotation of the eye between two scalings, and the factors of the scalings
belong together.

**Results**

* `Viewport.localToWorld_sub_position`, `Viewport.eyeToClip_apply`, `Viewport.eyeToTarget_apply`,
  `Viewport.clipToDiff_apply`: each path as scalings and a turn.
* `Viewport.ShowsArea`: viewports and eyes with areas to show.
* `Viewport.ShowsArea.scaled`: the factors of all paths belong together.
* `Viewport.paths_agree`: paths there and back, the corners of the view, and its height.
-/

namespace Penumbra
namespace Viewport

variable {K : Type} [ExactScalar K]

/-- Half of the picture in pixels. -/
def halfSize (v : Viewport K) : Vec2 K := (v.size.toVec2 (K := K)).scale 0.5

/-- The corners of the picture in pixels, counter-clockwise from the lower left one. -/
def screenCorners (v : Viewport K) : List (Vec2 K) :=
  let size := v.size.toVec2 (K := K)
  [⟨0, size.y⟩, size, ⟨size.x, 0⟩, ⟨0, 0⟩]

/-- A viewport and an eye that show an area: there are pixels, and no factor is zero. -/
structure ShowsArea (v : Viewport K) (e : Eye K) : Prop where
  width : 1 ≤ v.size.width
  height : 1 ≤ v.size.height
  renderScale : v.renderScale.x ≠ 0 ∧ v.renderScale.y ≠ 0
  zoom : e.zoom.x ≠ 0 ∧ e.zoom.y ≠ 0

section Paths

variable (v : Viewport K) (e : Eye K)

theorem halfSize_eq : v.halfSize = ⟨(v.size.width : K) / 2, (v.size.height : K) / 2⟩ := by
  have hhalf : (0.5 : K) = 1 / 2 := by
    norm_num
  rw [halfSize, Vec2.scale, hhalf, mul_one_div, mul_one_div]
  rfl

/-- From a pixel to the world around the eye: scaled to meters, then turned. -/
theorem localToWorld_sub_position (pixel : Vec2 K) :
    v.localToWorld e pixel - e.position =
      ((⟨pixel.x - v.halfSize.x, v.halfSize.y - pixel.y⟩ : Vec2 K) *
        v.metersPerPixel e).rotated e.rotation := by
  ext <;> simp [localToWorld, halfSize]

/-- From the world around the eye to clip space: turned back, then scaled. -/
theorem eyeToClip_apply (p : Vec2 K) :
    (v.eyeToClip e).apply p = v.clipScale e * p.rotated (-e.rotation) := by
  rw [eyeToClip, Affine.apply_compose, Affine.scaling_apply, Affine.rotation_apply]

/-- From there to pixels of a target, counted downwards from the upper left corner. -/
theorem eyeToTarget_apply_size (size : PixelSize) (p : Vec2 K) :
    let half := (size.toVec2 (K := K)).scale 0.5
    (v.eyeToTarget e size).apply p = ⟨half.x, -half.y⟩ * (v.eyeToClip e).apply p + half := by
  rw [eyeToTarget, Affine.apply_compose, Affine.apply_compose, Affine.shift_apply,
    Affine.scaling_apply]

/-- To pixels of the picture itself. -/
theorem eyeToTarget_apply (p : Vec2 K) :
    (v.eyeToTarget e v.size).apply p =
      ⟨v.halfSize.x, -v.halfSize.y⟩ * (v.eyeToClip e).apply p + v.halfSize :=
  v.eyeToTarget_apply_size e v.size p

/-- From clip space back to the world around the eye: scaled to meters, then turned. -/
theorem clipToDiff_apply (c : Vec2 K) :
    (v.clipToDiff e e.position).apply c =
      (c * (v.halfSize * v.metersPerPixel e)).rotated e.rotation := by
  ext
  · simp [clipToDiff, localToWorld, halfSize]
    ring
  · simp [clipToDiff, localToWorld, halfSize]
    ring

/-- A point of the box of the view comes to lie under a pixel if it is that far from the eye. -/
theorem turn_worldBounds {p pixel : Vec2 K}
    (h : p - e.position = (⟨pixel.x - v.halfSize.x, v.halfSize.y - pixel.y⟩ : Vec2 K) *
      v.metersPerPixel e) : (v.worldBounds e).turn p = v.localToWorld e pixel := by
  have hpath := v.localToWorld_sub_position e pixel
  rw [← h] at hpath
  have hturn : (v.worldBounds e).turn p = (p - e.position).rotated e.rotation + e.position := rfl
  rw [hturn, ← hpath]
  ext <;> simp

/-- The box of the view, before it is turned. -/
theorem bounds_worldBounds :
    let reach := v.halfSize * v.metersPerPixel e
    (v.worldBounds e).bounds =
      ⟨e.position.x - reach.x, e.position.y - reach.y,
        e.position.x + reach.x, e.position.y + reach.y⟩ := by
  intro reach
  have hreach : (v.size.toVec2 * v.metersPerPixel e).scale (0.5 : K) = reach := by
    ext
    · simp only [reach, halfSize, Vec2.scale, Vec2.mul_x]
      exact mul_right_comm ..
    · simp only [reach, halfSize, Vec2.scale, Vec2.mul_y]
      exact mul_right_comm ..
  rw [worldBounds, Box2.around, hreach]
  rfl

/-- The corners of the picture lie at the corners of the view. -/
theorem corners_worldBounds :
    (v.worldBounds e).corners = v.screenCorners.map (v.localToWorld e) := by
  have hsize : v.size.toVec2 =
      (⟨v.halfSize.x + v.halfSize.x, v.halfSize.y + v.halfSize.y⟩ : Vec2 K) := by
    rw [halfSize_eq, add_halves, add_halves]
    rfl
  have hcorners : (v.worldBounds e).corners =
      [(v.worldBounds e).bounds.bottomLeft, (v.worldBounds e).bounds.bottomRight,
        (v.worldBounds e).bounds.topRight, (v.worldBounds e).bounds.topLeft].map
        (v.worldBounds e).turn := rfl
  rw [hcorners, screenCorners, hsize, bounds_worldBounds]
  simp only [List.map_cons, List.map_nil, List.cons.injEq, and_true]
  refine ⟨v.turn_worldBounds e ?_, v.turn_worldBounds e ?_, v.turn_worldBounds e ?_,
    v.turn_worldBounds e ?_⟩
  all_goals
    ext
    · simp [Box2.bottomLeft, Box2.bottomRight, Box2.topRight, Box2.topLeft]
    · simp [Box2.bottomLeft, Box2.bottomRight, Box2.topRight, Box2.topLeft]

end Paths

namespace ShowsArea

variable {v : Viewport K} {e : Eye K}

/-- What the picture scales down by half its size, clip space scales up. -/
theorem scaled (h : v.ShowsArea e) :
    v.clipScale e * (v.halfSize * v.metersPerPixel e) = ⟨1, 1⟩ := by
  have hliterals : (32.0 : K) = 32 ∧ (2.0 : K) = 2 := by
    norm_num
  have hwidth : (v.size.width : K) ≠ 0 := Nat.cast_ne_zero.mpr (Nat.pos_iff_ne_zero.mp h.width)
  have hheight : (v.size.height : K) ≠ 0 := Nat.cast_ne_zero.mpr (Nat.pos_iff_ne_zero.mp h.height)
  obtain ⟨hscaleX, hscaleY⟩ := h.renderScale
  obtain ⟨hzoomX, hzoomY⟩ := h.zoom
  rw [halfSize_eq]
  ext
  · change (1.0 / e.zoom.x * v.renderScale.x * (32.0 * 2.0) / (v.size.width : K)) *
      ((v.size.width : K) / 2 * (e.zoom.x / (v.renderScale.x * 32.0))) = 1
    rw [hliterals.1, hliterals.2, Scalar.literal_one]
    field_simp
  · change (1.0 / e.zoom.y * v.renderScale.y * (32.0 * 2.0) / (v.size.height : K)) *
      ((v.size.height : K) / 2 * (e.zoom.y / (v.renderScale.y * 32.0))) = 1
    rw [hliterals.1, hliterals.2, Scalar.literal_one]
    field_simp

theorem clipToDiff_eyeToClip (h : v.ShowsArea e) (p : Vec2 K) :
    (v.clipToDiff e e.position).apply ((v.eyeToClip e).apply p) = p := by
  have hscaled := Vec2.ext_iff.mp h.scaled
  rw [clipToDiff_apply, eyeToClip_apply]
  calc ((v.clipScale e * p.rotated (-e.rotation)) *
        (v.halfSize * v.metersPerPixel e)).rotated e.rotation
      = (p.rotated (-e.rotation)).rotated e.rotation := by
        congr 1
        ext
        · simp only [Vec2.mul_x] at hscaled ⊢
          linear_combination (p.rotated (-e.rotation)).x * hscaled.1
        · simp only [Vec2.mul_y] at hscaled ⊢
          linear_combination (p.rotated (-e.rotation)).y * hscaled.2
    _ = p := p.rotated_neg_rotated e.rotation

theorem eyeToClip_clipToDiff (h : v.ShowsArea e) (c : Vec2 K) :
    (v.eyeToClip e).apply ((v.clipToDiff e e.position).apply c) = c := by
  have hscaled := Vec2.ext_iff.mp h.scaled
  rw [clipToDiff_apply, eyeToClip_apply, Vec2.rotated_rotated_neg]
  ext
  · simp only [Vec2.mul_x] at hscaled ⊢
    linear_combination c.x * hscaled.1
  · simp only [Vec2.mul_y] at hscaled ⊢
    linear_combination c.y * hscaled.2

theorem eyeToTarget_localToWorld (h : v.ShowsArea e) (pixel : Vec2 K) :
    (v.eyeToTarget e v.size).apply (v.localToWorld e pixel - e.position) = pixel := by
  have hscaled := Vec2.ext_iff.mp h.scaled
  rw [eyeToTarget_apply, eyeToClip_apply, localToWorld_sub_position, Vec2.rotated_rotated_neg]
  ext
  · simp only [Vec2.mul_x, Vec2.add_x] at hscaled ⊢
    linear_combination (pixel.x - v.halfSize.x) * hscaled.1
  · simp only [Vec2.mul_y, Vec2.add_y] at hscaled ⊢
    linear_combination (pixel.y - v.halfSize.y) * hscaled.2

end ShowsArea

/-- The height of the view, whatever the factors are. -/
theorem cameraSize_eq_height (v : Viewport K) (e : Eye K) :
    v.cameraSize e = (v.worldBounds e).bounds.height := by
  have hheight : (v.worldBounds e).bounds.height =
      v.halfSize.y * (v.metersPerPixel e).y + v.halfSize.y * (v.metersPerPixel e).y := by
    rw [bounds_worldBounds, Box2.height, Vec2.mul_y]
    ring
  rw [hheight, ← add_mul, halfSize_eq, add_halves]
  change e.zoom.y * (v.size.height : K) / v.renderScale.y / pixelsPerMeter =
    (v.size.height : K) * (e.zoom.y / (v.renderScale.y * pixelsPerMeter))
  rw [div_div, mul_comm e.zoom.y, mul_div_assoc]

/-- **The paths between picture and world.**  For each picture with pixels and each eye, turned and
zoomed in any way, in exact scalars: the maps to clip space and back undo each other; what is under
a pixel is drawn to that pixel; the corners of the picture lie at the corners of the view, in their
order; and the height of the camera is that of the view. -/
theorem paths_agree (v : Viewport K) (e : Eye K) (h : v.ShowsArea e) :
    ((∀ p, (v.clipToDiff e e.position).apply ((v.eyeToClip e).apply p) = p) ∧
        ∀ c, (v.eyeToClip e).apply ((v.clipToDiff e e.position).apply c) = c) ∧
      (∀ pixel, (v.eyeToTarget e v.size).apply (v.localToWorld e pixel - e.position) = pixel) ∧
      v.screenCorners.map (v.localToWorld e) = (v.worldBounds e).corners ∧
      v.cameraSize e = (v.worldBounds e).bounds.height :=
  ⟨⟨h.clipToDiff_eyeToClip, h.eyeToClip_clipToDiff⟩, h.eyeToTarget_localToWorld,
    (v.corners_worldBounds e).symm, v.cameraSize_eq_height e⟩

/-- A picture of a turned eye that zooms differently along its axes and mirrors one of them. -/
noncomputable def turnedEye : Eye ℝ where
  position := ⟨3, -4⟩
  map := ⟨1⟩
  rotation := 1
  zoom := ⟨2, -3⟩
  drawFov := true
  drawLight := true

noncomputable def halvedPicture : Viewport ℝ := ⟨⟨640, 480⟩, ⟨1 / 2, 1⟩⟩

theorem paths_agree_turnedEye :
    halvedPicture.ShowsArea turnedEye ∧
      (∀ p, (halvedPicture.clipToDiff turnedEye turnedEye.position).apply
        ((halvedPicture.eyeToClip turnedEye).apply p) = p) ∧
      halvedPicture.cameraSize turnedEye = (halvedPicture.worldBounds turnedEye).bounds.height := by
  have hshows : halvedPicture.ShowsArea turnedEye := by
    constructor <;> norm_num [halvedPicture, turnedEye]
  obtain ⟨⟨hthere, -⟩, -, -, hheight⟩ := paths_agree halvedPicture turnedEye hshows
  exact ⟨hshows, hthere, hheight⟩

end Viewport
end Penumbra
