import Mathlib
import Penumbra.Frame.Compose
import Penumbra.Frame.GraphicsDevice
import Penumbra.Proofs.Numeric.Pixels

/-!
# Quads of lights on the light map

The quad of a light is cut off at the sides of the light map, and its scissor is the whole pixels
that the rest touches.  Whatever numbers a light, an eye and a viewport are made of, the quad and
the scissor that come out lie on the light map, so that a device has nothing to cut off the scissor.

**Results**

* `LightFrame.Drawn`, `LightFrame.drawn_of_lightQuad?`: what is drawn of a light, along both sides.
* `ScissorRect.clamped?_of_within`: a device keeps a scissor that lies on the picture.
* `LightFrame.lightQuad_onTarget`: quads and scissors of machine numbers.
-/

namespace Penumbra

variable {K : Type} [Scalar K]

/-- A rectangle of pixels as a box. -/
def ScissorRect.box (r : ScissorRect) : Box2 K :=
  ⟨Scalar.ofNat r.x, Scalar.ofNat r.y, Scalar.ofNat (r.x + r.width), Scalar.ofNat (r.y + r.height)⟩

/-- All pixels of a picture as a box. -/
def PixelSize.box (s : PixelSize) : Box2 K :=
  ⟨0.0, 0.0, Scalar.ofNat s.width, Scalar.ofNat s.height⟩

/-- A device keeps a rectangle of pixels that lies on the picture. -/
theorem ScissorRect.clamped?_of_within {r : ScissorRect} {size : PixelSize} (hwidth : 1 ≤ r.width)
    (hheight : 1 ≤ r.height) (hright : r.x + r.width ≤ size.width)
    (htop : r.y + r.height ≤ size.height) : r.clamped? size = some r := by
  have hstart : ¬(size.width ≤ r.x ∨ size.height ≤ r.y) := by
    omega
  have hcolumns : min r.width (size.width - r.x) = r.width := by
    omega
  have hrows : min r.height (size.height - r.y) = r.height := by
    omega
  rw [clamped?, if_neg hstart]
  simp only [hcolumns, hrows]
  exact if_pos ⟨hwidth, hheight⟩

namespace LightFrame

/-- What is drawn of a light on a light map, and the pixels that it touches. -/
structure Drawn (size : PixelSize) (box : Box2 K) (scissor : ScissorRect) : Prop where
  across : Stretch box.left box.right scissor.x scissor.width size.width
  along : Stretch box.bottom box.top scissor.y scissor.height size.height

theorem lightQuad?_eq_none_iff {f : LightFrame K} {light : PointLight K} {shadowRowV : K} :
    f.lightQuad? light shadowRowV = none ↔ (f.footprint light).isEmpty = true := by
  simp [lightQuad?]

theorem lightQuad?_eq_some_iff {f : LightFrame K} {light : PointLight K} {shadowRowV : K}
    {quad : LightQuad K} {scissor : ScissorRect} :
    f.lightQuad? light shadowRowV = some (quad, scissor) ↔
      (f.footprint light).isEmpty = false ∧
        f.quadOf light shadowRowV (f.footprint light) = quad ∧
          scissorOf (f.footprint light) = scissor := by
  simp [lightQuad?]

section Laws

variable [PixelScalar K] {viewport : Viewport K} {eye : Eye K} {size : PixelSize}
  {light : PointLight K}

theorem drawn_footprint (hwidth : size.width ≤ PixelScalar.limit K)
    (hheight : size.height ≤ PixelScalar.limit K)
    (hpart : ((new viewport eye size).footprint light).isEmpty = false) :
    Drawn size ((new viewport eye size).footprint light)
      (scissorOf ((new viewport eye size).footprint light)) := by
  rw [Box2.isEmpty, Bool.or_eq_false_iff, decide_eq_false_iff_not, decide_eq_false_iff_not] at hpart
  exact ⟨stretch_of_clipped hwidth rfl rfl hpart.1, stretch_of_clipped hheight rfl rfl hpart.2⟩

theorem drawn_of_lightQuad? {shadowRowV : K} {quad : LightQuad K} {scissor : ScissorRect}
    (hwidth : size.width ≤ PixelScalar.limit K) (hheight : size.height ≤ PixelScalar.limit K)
    (h : (new viewport eye size).lightQuad? light shadowRowV = some (quad, scissor)) :
    ∃ box, quad.vertices.map (·.position) = box.corners ∧ Drawn size box scissor := by
  obtain ⟨hpart, rfl, rfl⟩ := lightQuad?_eq_some_iff.mp h
  exact ⟨_, rfl, drawn_footprint hwidth hheight hpart⟩

variable {box : Box2 K} {scissor : ScissorRect} {p : Vec2 K}

/-- The points that are drawn lie on the light map. -/
theorem Drawn.contains_size (h : Drawn size box scissor) (hp : box.contains p = true) :
    size.box.contains p = true := by
  simp only [Box2.contains, Bool.and_eq_true, decide_eq_true_eq] at hp ⊢
  obtain ⟨⟨⟨hleft, hright⟩, hbottom⟩, htop⟩ := hp
  exact ⟨⟨⟨PixelScalar.le_trans h.across.nonneg hleft,
    PixelScalar.le_trans hright h.across.le_size⟩, PixelScalar.le_trans h.along.nonneg hbottom⟩,
      PixelScalar.le_trans htop h.along.le_size⟩

/-- The points that are drawn lie in the scissor. -/
theorem Drawn.contains_scissor (h : Drawn size box scissor) (hp : box.contains p = true) :
    scissor.box.contains p = true := by
  simp only [Box2.contains, Bool.and_eq_true, decide_eq_true_eq] at hp ⊢
  obtain ⟨⟨⟨hleft, hright⟩, hbottom⟩, htop⟩ := hp
  exact ⟨⟨⟨PixelScalar.le_trans h.across.first_le hleft,
    PixelScalar.le_trans hright h.across.le_last⟩, PixelScalar.le_trans h.along.first_le hbottom⟩,
      PixelScalar.le_trans htop h.along.le_last⟩

/-- A box with its sides in order has its corners. -/
theorem Drawn.contains_corner (h : Drawn size box scissor) (hp : p ∈ box.corners) :
    box.contains p = true := by
  have hleft := Scalar.le_refl_of_isNumber (LawfulScalar.isNumber_of_le h.across.le).1
  have hright := Scalar.le_refl_of_isNumber (LawfulScalar.isNumber_of_le h.across.le).2
  have hbottom := Scalar.le_refl_of_isNumber (LawfulScalar.isNumber_of_le h.along.le).1
  have htop := Scalar.le_refl_of_isNumber (LawfulScalar.isNumber_of_le h.along.le).2
  simp only [Box2.corners, List.mem_cons, List.not_mem_nil, or_false] at hp
  rcases hp with rfl | rfl | rfl | rfl <;>
    simp [Box2.contains, Box2.bottomLeft, Box2.bottomRight, Box2.topRight, Box2.topLeft, hleft,
      hright, hbottom, htop, h.across.le, h.along.le]

end Laws

/--
The quad of a light has an area and lies on the light map with all pixels that it touches, for any
numbers that a light, an eye and a viewport may have, infinities and what is not a number included.
Counts of pixels up to `2 ^ 24` are machine numbers without loss.
-/
theorem lightQuad_onTarget (viewport : Viewport Float32) (eye : Eye Float32) (size : PixelSize)
    (light : PointLight Float32) (shadowRowV : Float32) (quad : LightQuad Float32)
    (scissor : ScissorRect) (hwidth : size.width ≤ 16777216) (hheight : size.height ≤ 16777216)
    (h : (new viewport eye size).lightQuad? light shadowRowV = some (quad, scissor)) :
    (1 ≤ scissor.width ∧ 1 ≤ scissor.height ∧
      scissor.x + scissor.width ≤ size.width ∧ scissor.y + scissor.height ≤ size.height) ∧
    (∃ box : Box2 Float32, quad.vertices.map (·.position) = box.corners ∧
      box.left < box.right ∧ box.bottom < box.top ∧
      ∀ corner ∈ box.corners,
        size.box.contains corner = true ∧ scissor.box.contains corner = true) ∧
    scissor.clamped? size = some scissor := by
  obtain ⟨box, hpositions, hdrawn⟩ := drawn_of_lightQuad? hwidth hheight h
  refine ⟨⟨hdrawn.across.count_pos, hdrawn.along.count_pos, hdrawn.across.within,
    hdrawn.along.within⟩, ⟨box, hpositions, hdrawn.across.lt, hdrawn.along.lt, ?_⟩, ?_⟩
  · intro corner hcorner
    have hcontains := hdrawn.contains_corner hcorner
    exact ⟨hdrawn.contains_size hcontains, hdrawn.contains_scissor hcontains⟩
  · exact ScissorRect.clamped?_of_within hdrawn.across.count_pos hdrawn.along.count_pos
      hdrawn.across.within hdrawn.along.within

def plainEye : Eye Float32 where
  position := Vec2.zero
  map := ⟨0⟩
  rotation := 0.0
  zoom := Vec2.one
  drawFov := true
  drawLight := true

/-- A light of infinite range. -/
def endlessLight : PointLight Float32 where
  color := Color.black
  position := ⟨3.0, 1.0⟩
  range := 1.0 / 0.0
  power := 1.0
  softness := 1.0
  angle := 0.0
  maskUv := Box2.zero
  distanceSquared := 10.0
  castsShadows := false
  shadowRow := 0

theorem lightQuad_onTarget_endlessLight :
    ∃ quad scissor,
      (new (Viewport.new 320 240) plainEye ⟨320, 240⟩).lightQuad? endlessLight 0.0 =
        some (quad, scissor) ∧ scissor.clamped? ⟨320, 240⟩ = some scissor := by
  have hdrawn : ((new (Viewport.new 320 240) plainEye ⟨320, 240⟩).lightQuad? endlessLight
      0.0).isSome = true := by
    decide +kernel
  obtain ⟨⟨quad, scissor⟩, h⟩ := Option.isSome_iff_exists.mp hdrawn
  exact ⟨quad, scissor, h, (lightQuad_onTarget (Viewport.new 320 240) plainEye ⟨320, 240⟩
    endlessLight 0.0 quad scissor (by decide) (by decide) h).2.2⟩

end LightFrame

end Penumbra
