import Penumbra.Proofs.Frame.Refusal

/-!
# Frames without faults

Whatever an eye looks at, a frame over a world ends with a result or with a command that the device
refuses.  No promise between the parts of the library is broken on the way: the phases follow one
another, there is room for each quad, and there are as many shadow maps, corners and segments as
there have to be.

The one promise that numbers could break is that of the box around the view, whose sides have to be
in order when a circle is compared with it.  They are, unless some side is not a number, and then a
world has no lights to compare.

**Results**

* `Box2.Numeric`, `RotatedBox.numeric_iff`: the box around a view has numbers as its sides just when
  they are in order.
* `World.comparable_of_mem`: the lights of a world are only compared with such boxes.
* `frame_faultless`: no frame over a world has a fault.
-/

namespace Penumbra

section Views

variable {K : Type} [Scalar K]

/-- All sides of a box are numbers. -/
structure Box2.Numeric (b : Box2 K) : Prop where
  left : Scalar.isNumber b.left = true
  bottom : Scalar.isNumber b.bottom = true
  right : Scalar.isNumber b.right = true
  top : Scalar.isNumber b.top = true

/-- What a light is compared with: a box with its sides in order, none of which is not a number. -/
structure LightEntry.Comparable (e : LightEntry K) (box : Box2 K) : Prop where
  ordered : box.Ordered
  numeric : box.Numeric
  answered : ∃ b, (Circle.mk e.position e.light.radius).intersectsBox? box = some b

variable [OrderedScalar K]

theorem Box2.Ordered.numeric {b : Box2 K} (h : b.Ordered) : b.Numeric := by
  obtain ⟨hleft, hright⟩ := LawfulScalar.isNumber_of_le h.horizontal
  obtain ⟨hbottom, htop⟩ := LawfulScalar.isNumber_of_le h.vertical
  exact ⟨hleft, hbottom, hright, htop⟩

omit [OrderedScalar K] in
theorem Scalar.Span.le_of_isNumber {low high : K} {among : List K} (h : Scalar.Span low high among)
    (hlow : Scalar.isNumber low = true) : low ≤ high := by
  refine h.resolve_right ?_
  rintro ⟨hnone, -, -⟩
  rw [hlow] at hnone
  cases hnone

/-- The box around a view has numbers as its sides just when they are in order. -/
theorem RotatedBox.numeric_iff (view : RotatedBox K) :
    view.boundingBox.Numeric ↔ view.boundingBox.Ordered := by
  constructor
  · intro h
    have hcorners : view.corners ≠ [] := by
      simp [corners, Box2.corners]
    obtain ⟨horizontal, vertical⟩ := around_boundsOf hcorners
    exact ⟨horizontal.le_of_isNumber h.left, vertical.le_of_isNumber h.bottom⟩
  · exact Box2.Ordered.numeric

/-- A world has lights only for views whose box they can be compared with. -/
theorem World.comparable_of_mem (w : World K) {map : MapId} {view : RotatedBox K} {e : LightEntry K}
    (h : e ∈ w.index.lights map view) : e.Comparable view.boundingBox := by
  have hordered : view.boundingBox.Ordered := by
    by_contra hnone
    rw [w.lights_eq_nil_of_not_ordered map hnone] at h
    cases h
  exact ⟨hordered, hordered.numeric, Circle.intersectsBox?_isSome hordered _⟩

end Views

section Answers

variable {D K S α : Type} [Device D K]

/-- On any device a pass with a result has it, unless a command is refused. -/
theorem Pass.answer_of_outcome {p : Pass K S α} {s : S} {x : α × S} (h : (p s).outcome = .ok x)
    (d : D) :
    (p.run s d).1 = .ok x.1 ∨ ∃ message, (p.run s d).1 = .error (.error (.backend message)) := by
  rcases hperform : performAll (p s).steps d with ⟨_ | ⟨message, s'⟩, d'⟩
  · exact Or.inl (by rw [run_of_ok hperform h])
  · exact Or.inr ⟨message, by rw [run_of_refused hperform]⟩

end Answers

section Frame

variable {D D' : Type} [Device D Float32] [Device D' Float32] {config : Config Float32}
  {requests : List (Request Float32)} {device d : D} {answers : List (Except Failure Unit)}
  {r : Renderer Float32}

/-- A frame over a world, in any session and on any device, for any eye, picture and lighting.  Its
script has a result, so that no fault comes after any of its commands.  It answers with that result
or with what the device refuses, and the next frame can begin.  Each light that it looks at can be
compared with the box around the view; there is none for a box with a side that is not a number. -/
theorem frame_faultless (h : session config requests device = (answers, some r, d))
    (w : World Float32) (capabilities : Capabilities) (eye : Eye Float32)
    (viewport : Viewport Float32) (lighting : MapLighting Float32) (other : D') :
    let call : FrameCall Float32 := ⟨capabilities, w.index, eye, viewport, lighting⟩
    let view := viewport.worldBounds eye
    ∃ stats last, (call.pass r).outcome = .ok (stats, last) ∧
      ((call.pass.run r other).1 = .ok stats ∨
        ∃ message, (call.pass.run r other).1 = .error (.error (.backend message))) ∧
      (call.pass.run r other).2.1.frame.phase = .idle ∧
      (∀ e ∈ w.index.lights eye.map view, e.Comparable view.boundingBox) ∧
      (¬view.boundingBox.Numeric → ∀ map, w.index.lights map view = []) := by
  intro call view
  have hstep := inStep_session h
  obtain ⟨stats, last, houtcome, -⟩ := outcome_of_answered call hstep fun _ => w.answered rfl
  refine ⟨stats, last, houtcome, Pass.answer_of_outcome houtcome other,
    (inStep_frame call hstep other).phase, ?_, ?_⟩
  · exact fun e he => w.comparable_of_mem he
  · intro hnumeric map
    rw [view.numeric_iff] at hnumeric
    exact w.lights_eq_nil_of_not_ordered map hnumeric

/-- A session whose first frame is refused while its light map is drawn. -/
def refusedFirst : List (Except Failure Unit) × Option (Renderer Float32) × Recorder Float32 :=
  session Config.standard [.drawFrame twoLightsView]
    ((Recorder.new Recorder.generous).refusingAfter 13)

def refusedFirstRenderer : Renderer Float32 :=
  refusedFirst.2.1.getD (Renderer.new Config.standard)

/-- An eye that sees nothing, because its zoom is not a number. -/
def blindEye : Eye Float32 := { twoLightsView.eye with zoom := ⟨0.0 / 0.0, 1.0⟩ }

/-- After a refused frame, an eye that sees nothing and one that sees two lights. -/
theorem frame_faultless_refusedFirst :
    refusedFirst = (refusedFirst.1, some refusedFirstRenderer, refusedFirst.2.2) ∧
      refusedFirst.1 = [.ok (), .error (.error (.backend Recorder.refusal))] ∧
      twoLights.index.lights ⟨1⟩ (twoLightsView.viewport.worldBounds blindEye) = [] ∧
      (∃ stats last, (({ twoLightsView with eye := blindEye } : FrameCall Float32).pass
        refusedFirstRenderer).outcome = .ok (stats, last)) ∧
      (twoLights.index.lights ⟨1⟩
        (twoLightsView.viewport.worldBounds twoLightsView.eye)).length = 2 ∧
      ∀ e ∈ twoLights.index.lights ⟨1⟩ (twoLightsView.viewport.worldBounds twoLightsView.eye),
        e.Comparable (twoLightsView.viewport.worldBounds twoLightsView.eye).boundingBox := by
  have hvalues : refusedFirst.2.1.isSome = true ∧
      refusedFirst.1 = [.ok (), .error (.error (.backend Recorder.refusal))] ∧
      Scalar.isNumber (twoLightsView.viewport.worldBounds blindEye).boundingBox.left = false ∧
      (twoLights.index.lights ⟨1⟩
        (twoLightsView.viewport.worldBounds twoLightsView.eye)).length = 2 := by
    decide +kernel
  obtain ⟨hsome, hanswers, hleft, hlength⟩ := hvalues
  have hsession : refusedFirst = (refusedFirst.1, some refusedFirstRenderer, refusedFirst.2.2) :=
    eq_of_isSome hsome _
  obtain ⟨stats, last, houtcome, -, -, -, hblind⟩ := frame_faultless hsession twoLights
    twoLightsView.device blindEye twoLightsView.viewport twoLightsView.lighting refusedFirst.2.2
  obtain ⟨-, -, -, -, -, hseen, -⟩ := frame_faultless hsession twoLights twoLightsView.device
    twoLightsView.eye twoLightsView.viewport twoLightsView.lighting refusedFirst.2.2
  have hnumeric : ¬(twoLightsView.viewport.worldBounds blindEye).boundingBox.Numeric := by
    intro h
    rw [h.left] at hleft
    cases hleft
  exact ⟨hsession, hanswers, hblind hnumeric ⟨1⟩, ⟨stats, last, houtcome⟩, hlength, hseen⟩

end Frame

end Penumbra
