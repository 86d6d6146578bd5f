import Penumbra.Frame.State

/-!
# After the light map

The light map is blurred, light bleeds onto the faces of walls, and what is out of sight is hidden.

**Contents**

* `blurFactor`, `blurRadii`: how far is blurred.
* `lightBlurPasses`, `wallBleedPasses`: the directions of the blurs in order.
* `PostSettings`, `drawPost`, `hideUnseen`: the passes.
-/

namespace Penumbra

variable {K : Type} [Scalar K]

/-- The visible height at which blur factors apply as they are. -/
def referenceHeight : K := 14.0

def wallBleedFactor : K := 0.007

/-- The visible height counts as at least this, the spacing of 32-bit numbers at one. -/
def smallestHeight : K := 1.0 / 8388608.0

/-- A blur factor for a visible height, so that a blur looks the same at any zoom. -/
def blurFactor (base cameraSize : K) : K :=
  base * referenceHeight / Scalar.maximum cameraSize smallestHeight

/-- How far each round of a blur reaches, the widest one first. -/
def blurRadii (factor : K) : List K := [4.0 * factor, 3.0 * factor, 2.0 * factor]

/-- A round of a blur: along the rows from one texture to a second, along the columns to a third. -/
def blurRound (radius : K) (source between destination : BlurTarget) : List (BlurPass K) :=
  [⟨source, between, ⟨1.0, 0.0⟩, radius⟩, ⟨between, destination, ⟨0.0, 1.0⟩, radius⟩]

def lightBlurPasses (factor : K) : List (BlurPass K) :=
  (blurRadii factor).flatMap fun radius => blurRound radius .light .lightBlur .light

/-- The blur of light onto walls: the first round starts from the light map, later ones go on. -/
def wallBleedPasses (factor : K) : List (BlurPass K) :=
  (((blurRadii factor).zip [BlurTarget.light, .wallBleed2, .wallBleed2])).flatMap
    fun (radius, source) => blurRound radius source .wallBleed1 .wallBleed2

structure PostSettings (K : Type) where
  lightBlur : Bool
  lightBlurFactor : K
  cameraSize : K
deriving Repr, Inhabited

def drawBlurs : List (BlurPass K) → FramePass K Unit
  | [] => return
  | pass :: rest => do
    drawWith 1 (.blur pass)
    drawBlurs rest

/-- Blurs the light map and lets light bleed onto walls. -/
def drawPost (settings : PostSettings K) : FramePass K Unit := do
  if settings.lightBlur then
    drawBlurs (lightBlurPasses (blurFactor settings.lightBlurFactor settings.cameraSize))
  drawBlurs (wallBleedPasses (blurFactor wallBleedFactor settings.cameraSize))
  drawWith 1 .mergeWallBleed

def hideUnseen (viewport : Viewport K) (eye : Eye K) (occludeColor : Color K) : FramePass K Unit :=
  drawWith 1 (.applyFov ⟨viewport.clipToDiff eye eye.position, occludeColor⟩)

end Penumbra
