import Mathlib.Algebra.GroupWithZero.Nat
import Penumbra.Frame.GraphicsDevice
import Penumbra.Frame.Script

/-!
# What a graphics device carries out

In a frame, and with its textures at hand, a device carries out each command that it has room for
and that comes in its turn.  So it carries out any number of commands that together take no more
room than there is.

**Results**

* `GraphicsDevice.Yields`: the rules for a part of a command give a result.
* `Command.Suits`, `DeviceFrame.Fits`: a command in its turn, and a frame with room.
* `perform_of_suits`, `carries_of_asks`: such a command is carried out, and so are many.
* `resizeTargets_cases`: textures are made or are too large.
* `eq_targetTooLarge_of_message`: the text about a texture that is too large stands for nothing else.
-/

namespace Penumbra

namespace GraphicsDevice

section Yields

variable {α β : Type}

/-- The rules for a part of a command refuse nothing, and give a result and the device after it. -/
def Yields (x : Rules α) (d : GraphicsDevice) (a : α) (d' : GraphicsDevice) : Prop :=
  x.run.run d = (.ok a, d')

theorem Yields.pure (a : α) (d : GraphicsDevice) : Yields (Pure.pure a) d a d := rfl

theorem Yields.bind {x : Rules α} {next : α → Rules β} {d d' d'' : GraphicsDevice} {a : α} {b : β}
    (hx : Yields x d a d') (hnext : Yields (next a) d' b d'') : Yields (x >>= next) d b d'' := by
  unfold Yields at hx hnext ⊢
  rw [ExceptT.run_bind, StateT.run_bind, hx]
  exact hnext

/-- The rules for a part of a command refuse it, and leave the device in some state. -/
def Refuses (x : Rules α) (d : GraphicsDevice) (refusal : Refusal) (d' : GraphicsDevice) : Prop :=
  x.run.run d = (.error refusal, d')

theorem Refuses.bind {x : Rules α} {d d' : GraphicsDevice} {refusal : Refusal}
    (hx : Refuses x d refusal d') (next : α → Rules β) : Refuses (x >>= next) d refusal d' := by
  unfold Refuses at hx ⊢
  rw [ExceptT.run_bind, StateT.run_bind, hx]
  rfl

theorem Yields.bind_refuses {x : Rules α} {next : α → Rules β} {d d' d'' : GraphicsDevice} {a : α}
    {refusal : Refusal} (hx : Yields x d a d') (hnext : Refuses (next a) d' refusal d'') :
    Refuses (x >>= next) d refusal d'' := by
  unfold Yields at hx
  unfold Refuses at hnext ⊢
  rw [ExceptT.run_bind, StateT.run_bind, hx]
  exact hnext

theorem yields_get (d : GraphicsDevice) : Yields get d d d := rfl

theorem yields_modify (f : GraphicsDevice → GraphicsDevice) (d : GraphicsDevice) :
    Yields (modify f) d () (f d) := rfl

end Yields

section Parts

variable {d : GraphicsDevice} {frame : DeviceFrame}

/-- The device with a frame in progress. -/
def inFrame (d : GraphicsDevice) (frame : DeviceFrame) : GraphicsDevice :=
  { d with frame := some frame }

/-- Textures and masks are there. -/
structure Equipped (d : GraphicsDevice) : Prop where
  targets : d.targets.isSome = true
  hasAtlas : d.hasAtlas = true

theorem Equipped.inFrame (h : d.Equipped) (frame : DeviceFrame) : (d.inFrame frame).Equipped :=
  ⟨h.targets, h.hasAtlas⟩

theorem yields_needFrame (d : GraphicsDevice) (frame : DeviceFrame) :
    Yields needFrame (d.inFrame frame) frame (d.inFrame frame) := rfl

theorem yields_needTargets (h : d.Equipped) : ∃ sizes, Yields needTargets d sizes d := by
  obtain ⟨sizes, hsizes⟩ := Option.isSome_iff_exists.mp h.targets
  refine ⟨sizes, (yields_get d).bind ?_⟩
  rw [hsizes]
  exact Yields.pure sizes d

theorem yields_needAtlas (h : d.Equipped) : Yields needAtlas d () d := by
  refine (yields_get d).bind ?_
  rw [h.targets, h.hasAtlas]
  exact Yields.pure () d

theorem yields_needLightPass (d : GraphicsDevice) (h : frame.inLightPass = true) :
    Yields needLightPass (d.inFrame frame) () (d.inFrame frame) := by
  refine (yields_get _).bind ?_
  simp only [inFrame, h, if_true]
  exact Yields.pure () _

theorem yields_putFrame (d : GraphicsDevice) (frame : DeviceFrame) :
    Yields (putFrame frame) d () (d.inFrame frame) := rfl

theorem yields_takeUniforms (d : GraphicsDevice) (h : frame.uniforms + 1 ≤ uniformSlots) :
    Yields takeUniforms (d.inFrame frame) ()
      (d.inFrame { frame with uniforms := frame.uniforms + 1 }) := by
  refine (yields_needFrame d frame).bind ?_
  rw [if_neg (Nat.not_lt.mpr h)]
  exact yields_putFrame _ _

theorem yields_takeLightGeometry (d : GraphicsDevice) {vertices indices : Nat}
    (hvertices : frame.vertices + vertices ≤ d.vertexRoom)
    (hindices : frame.indices + indices ≤ d.indexRoom) (heven : indices % 2 = 0) :
    Yields (takeLightGeometry vertices indices) (d.inFrame frame) ()
      (d.inFrame { frame with
        vertices := frame.vertices + vertices, indices := frame.indices + indices }) := by
  refine (yields_needFrame d frame).bind ((yields_get _).bind ?_)
  have hroom : ¬((d.inFrame frame).vertexRoom < frame.vertices + vertices ∨
      (d.inFrame frame).indexRoom < frame.indices + indices) :=
    not_or.mpr ⟨Nat.not_lt.mpr hvertices, Nat.not_lt.mpr hindices⟩
  rw [if_neg hroom]
  change Yields (if indices % 2 ≠ 0 then _ else _) _ _ _
  rw [if_neg fun hodd => hodd heven]
  exact yields_putFrame _ _

theorem yields_drawPass (he : d.Equipped) (h : frame.uniforms + 1 ≤ uniformSlots) :
    Yields drawPass (d.inFrame frame) ()
      (d.inFrame { frame with uniforms := frame.uniforms + 1 }) := by
  obtain ⟨sizes, htargets⟩ := yields_needTargets (he.inFrame { frame with
    uniforms := frame.uniforms + 1 })
  exact (yields_takeUniforms d h).bind ((yields_needFrame d _).bind (htargets.bind (Yields.pure _ _)))

/-- Lights are drawn once there is room for their corners. -/
theorem yields_drawLights (he : d.Equipped) (hlit : frame.inLightPass = true)
    {vertices indices : Nat} (hvertices : frame.vertices + vertices ≤ d.vertexRoom)
    (hindices : frame.indices + indices ≤ d.indexRoom) (heven : indices % 2 = 0) :
    Yields (do
        needLightPass
        takeLightGeometry vertices indices
        needAtlas
        let _ ← needFrame
        let _ ← needTargets) (d.inFrame frame) ()
      (d.inFrame { frame with
        vertices := frame.vertices + vertices, indices := frame.indices + indices }) := by
  have hlater := he.inFrame { frame with
    vertices := frame.vertices + vertices, indices := frame.indices + indices }
  obtain ⟨sizes, htargets⟩ := yields_needTargets hlater
  exact (yields_needLightPass d hlit).bind
    ((yields_takeLightGeometry d hvertices hindices heven).bind
      ((yields_needAtlas hlater).bind
        ((yields_needFrame d _).bind (htargets.bind (Yields.pure () _)))))

theorem yields_drawLightBatch (he : d.Equipped) (hlit : frame.inLightPass = true)
    {vertices indices : Nat} (hvertices : frame.vertices + vertices ≤ d.vertexRoom)
    (hindices : frame.indices + indices ≤ d.indexRoom) (heven : indices % 2 = 0) :
    Yields (drawLightBatch vertices indices) (d.inFrame frame) ()
      (d.inFrame (if vertices = 0 ∨ indices = 0 then frame else { frame with
        vertices := frame.vertices + vertices, indices := frame.indices + indices })) := by
  unfold drawLightBatch
  by_cases hnone : vertices = 0 ∨ indices = 0
  · rw [if_pos hnone, if_pos hnone]
    exact Yields.pure () _
  · rw [if_neg hnone, if_neg hnone]
    exact yields_drawLights he hlit hvertices hindices heven

theorem yields_uploadOcclusion {occluders casters : Nat}
    (hoccluders : occluders ≤ d.capacities.maxOccluders) (hcasters : casters ≤ d.casterRoom) :
    Yields (uploadOcclusion occluders casters) d () d := by
  refine (yields_get d).bind ?_
  change Yields (if d.capacities.maxOccluders < occluders then _ else
    if d.casterRoom < casters then _ else _) d () d
  rw [if_neg (Nat.not_lt.mpr hoccluders), if_neg (Nat.not_lt.mpr hcasters)]
  exact Yields.pure () d

end Parts

end GraphicsDevice

section Commands

variable {K : Type}

/-- Passes that have uniforms of their own. -/
def Command.passes : Command K → Nat
  | .drawOcclusionDepth _ => 1
  | .beginLightPass _ => 1
  | .drawLightingFov _ => 1
  | .drawOccluderMask _ => 1
  | .blur _ => 1
  | .mergeWallBleed => 1
  | .applyFov _ => 1
  | _ => 0

/-- Corners of lights. -/
def Command.corners : Command K → Nat
  | .drawLightBatch vertices _ => vertices.length
  | .drawShadowCaster _ => 4
  | _ => 0

/-- Corners of triangles of lights. -/
def Command.indices : Command K → Nat
  | .drawLightBatch _ indices => indices.length
  | _ => 0

/-- Whether lights may be drawn after a command. -/
def Command.litAfter (lit : Bool) : Command K → Bool
  | .beginLightPass _ => true
  | .endLightPass => false
  | _ => lit

/-- A command inside of a frame that buffers have room for, and that comes in its turn. -/
def Command.Suits (capacities : BufferCapacities) (lit : Bool) : Command K → Prop
  | .uploadOcclusion geometry instances _ =>
    geometry.occluderCount ≤ capacities.maxOccluders ∧
      instances.length ≤ max capacities.maxShadowLights 1
  | .drawLightBatch _ indices => lit = true ∧ indices.length % 2 = 0
  | .drawShadowCaster _ => lit = true
  | .resizeTargets _ | .resizeBuffers _ | .uploadMaskAtlas _ | .beginFrame | .endFrame => False
  | _ => True

/-- A frame in progress that has room for some passes and corners. -/
structure DeviceFrame.Fits (frame : DeviceFrame) (d : GraphicsDevice) (lit : Bool)
    (passes corners indices : Nat) : Prop where
  lit : frame.inLightPass = lit
  uniforms : frame.uniforms + passes ≤ uniformSlots
  vertices : frame.vertices + corners ≤ d.vertexRoom
  indices : frame.indices + indices ≤ d.indexRoom

namespace GraphicsDevice

variable {d : GraphicsDevice} {frame : DeviceFrame} {lit : Bool} {passes corners indices : Nat}

theorem fits_of_spare {n m k : Nat}
    (h : frame.Fits d lit (n + passes) (m + corners) (k + indices)) :
    frame.Fits d lit passes corners indices := by
  obtain ⟨hlit, huniforms, hvertices, hindices⟩ := h
  exact ⟨hlit, by omega, by omega, by omega⟩

/-- There is room for some passes and corners, and for the rest after these. -/
theorem fits_of_taken {n m k : Nat}
    (h : frame.Fits d lit (n + passes) (m + corners) (k + indices)) :
    (frame.uniforms + n ≤ uniformSlots ∧ frame.vertices + m ≤ d.vertexRoom ∧
      frame.indices + k ≤ d.indexRoom) ∧
    DeviceFrame.Fits { frame with
      uniforms := frame.uniforms + n
      vertices := frame.vertices + m
      indices := frame.indices + k } d lit passes corners indices := by
  obtain ⟨hlit, huniforms, hvertices, hindices⟩ := h
  rw [← Nat.add_assoc] at huniforms hvertices hindices
  refine ⟨⟨?_, ?_, ?_⟩, hlit, huniforms, hvertices, hindices⟩
  · exact Nat.le_trans (Nat.le_add_right _ _) huniforms
  · exact Nat.le_trans (Nat.le_add_right _ _) hvertices
  · exact Nat.le_trans (Nat.le_add_right _ _) hindices

/-- A command that comes in its turn, with room for it, is carried out. -/
theorem perform_of_suits (he : d.Equipped) {c : Command K} (hc : c.Suits d.capacities lit)
    (h : frame.Fits d lit (c.passes + passes) (c.corners + corners) (c.indices + indices)) :
    ∃ frame' : DeviceFrame, perform? (d.inFrame frame) c = (.ok (), d.inFrame frame') ∧
      frame'.Fits d (c.litAfter lit) passes corners indices := by
  have hrest := fits_of_spare h
  obtain ⟨⟨hpass, hvertices, hindices⟩, hafter⟩ := fits_of_taken h
  cases c with
  | resizeTargets | resizeBuffers | uploadMaskAtlas | beginFrame | endFrame =>
      exact hc.elim
  | uploadOcclusion geometry instances fov =>
      exact ⟨frame, yields_uploadOcclusion hc.1 hc.2, hrest⟩
  | setDepthState state =>
      exact ⟨frame, rfl, hrest⟩
  | clearDepthTarget target clear =>
      obtain ⟨sizes, htargets⟩ := yields_needTargets (he.inFrame frame)
      exact ⟨frame, (yields_needFrame d frame).bind (htargets.bind (Yields.pure () _)), hrest⟩
  | drawOcclusionDepth draw =>
      obtain ⟨sizes, htargets⟩ := yields_needTargets (he.inFrame frame)
      exact ⟨_, htargets.bind (yields_drawPass he hpass), hafter⟩
  | beginLightPass pass =>
      refine ⟨{ frame with uniforms := frame.uniforms + 1, inLightPass := true }, ?_, ?_⟩
      · exact (yields_drawPass he hpass).bind ((yields_needFrame d _).bind (yields_putFrame _ _))
      · exact ⟨rfl, hafter.uniforms, hafter.vertices, hafter.indices⟩
  | drawLightingFov | drawOccluderMask | blur | mergeWallBleed | applyFov =>
      exact ⟨_, yields_drawPass he hpass, hafter⟩
  | drawLightBatch vertices triangles =>
      refine ⟨_, yields_drawLightBatch he (h.lit.trans hc.1) hvertices hindices hc.2, ?_⟩
      -- A batch without corners or triangles takes nothing.
      split
      · exact hrest
      · exact hafter
  | drawShadowCaster draw =>
      exact ⟨_, yields_drawLights he (h.lit.trans hc) hvertices hindices rfl, hafter⟩
  | endLightPass =>
      exact ⟨{ frame with inLightPass := false }, rfl, rfl, hrest.uniforms, hrest.vertices,
        hrest.indices⟩

end GraphicsDevice

end Commands

section Runs

variable {K : Type} {d : GraphicsDevice} {frame : DeviceFrame} {lit mid lit' : Bool}
  {cs cs' : List (Command K)} {capacities : BufferCapacities}
  {passes corners indices passes' corners' indices' : Nat}

/-- Each command comes in its turn. -/
def SuitAll (capacities : BufferCapacities) : Bool → List (Command K) → Prop
  | _, [] => True
  | lit, c :: rest => c.Suits capacities lit ∧ SuitAll capacities (c.litAfter lit) rest

/-- Commands inside of a frame, each in its turn, that together take at most some room. -/
structure Asks (capacities : BufferCapacities) (lit : Bool) (cs : List (Command K)) (lit' : Bool)
    (passes corners indices : Nat) : Prop where
  suits : SuitAll capacities lit cs
  last : cs.foldl Command.litAfter lit = lit'
  passes_le : (cs.map Command.passes).sum ≤ passes
  corners_le : (cs.map Command.corners).sum ≤ corners
  indices_le : (cs.map Command.indices).sum ≤ indices

namespace Asks

theorem nil (capacities : BufferCapacities) (lit : Bool) :
    Asks capacities lit ([] : List (Command K)) lit 0 0 0 :=
  ⟨trivial, rfl, Nat.le_refl _, Nat.le_refl _, Nat.le_refl _⟩

theorem single (c : Command K) (h : c.Suits capacities lit) :
    Asks capacities lit [c] (c.litAfter lit) c.passes c.corners c.indices :=
  ⟨⟨h, trivial⟩, rfl, Nat.le_refl _, Nat.le_refl _, Nat.le_refl _⟩

theorem append (h : Asks capacities lit cs mid passes corners indices)
    (h' : Asks capacities mid cs' lit' passes' corners' indices') :
    Asks capacities lit (cs ++ cs') lit' (passes + passes') (corners + corners')
      (indices + indices') := by
  constructor
  · obtain ⟨hsuits, hlast, -, -, -⟩ := h
    induction cs generalizing lit with
    | nil =>
        obtain rfl : lit = mid := hlast
        exact h'.suits
    | cons c rest ih =>
        exact ⟨hsuits.1, ih hsuits.2 hlast⟩
  · rw [List.foldl_append, h.last, h'.last]
  · rw [List.map_append, List.sum_append]
    exact Nat.add_le_add h.passes_le h'.passes_le
  · rw [List.map_append, List.sum_append]
    exact Nat.add_le_add h.corners_le h'.corners_le
  · rw [List.map_append, List.sum_append]
    exact Nat.add_le_add h.indices_le h'.indices_le

theorem mono (h : Asks capacities lit cs lit' passes corners indices) (hpasses : passes ≤ passes')
    (hcorners : corners ≤ corners') (hindices : indices ≤ indices') :
    Asks capacities lit cs lit' passes' corners' indices' :=
  ⟨h.suits, h.last, Nat.le_trans h.passes_le hpasses, Nat.le_trans h.corners_le hcorners,
    Nat.le_trans h.indices_le hindices⟩

/-- Commands that may be left out. -/
theorem ite {p : Prop} [Decidable p] (h : Asks capacities lit cs lit passes corners indices) :
    Asks capacities lit (if p then cs else []) lit passes corners indices := by
  split
  · exact h
  · exact (nil capacities lit).mono (Nat.zero_le _) (Nat.zero_le _) (Nat.zero_le _)

end Asks

/-- A device carries out commands and is then another one. -/
def GraphicsDevice.Carries : GraphicsDevice → List (Command K) → GraphicsDevice → Prop
  | d, [], d' => d = d'
  | d, c :: rest, d' => ∃ next, d.perform? c = (.ok (), next) ∧ Carries next rest d'

namespace GraphicsDevice

theorem Carries.append {d next d' : GraphicsDevice} (h : d.Carries cs next)
    (h' : next.Carries cs' d') : d.Carries (cs ++ cs') d' := by
  induction cs generalizing d with
  | nil =>
      obtain rfl : d = next := h
      exact h'
  | cons c rest ih =>
      obtain ⟨after, hperform, hrest⟩ := h
      exact ⟨after, hperform, ih hrest⟩

theorem performAll_of_carries {S : Type} {steps : List (Command K × S)} {d d' : GraphicsDevice}
    (h : d.Carries (steps.map (·.1)) d') : Pass.performAll steps d = (none, d') := by
  induction steps generalizing d with
  | nil =>
      exact congrArg (Prod.mk none) h
  | cons x rest ih =>
      obtain ⟨next, hperform, hrest⟩ := h
      have hdevice : Device.perform d x.1 = (.ok (), next) := by
        simp only [Device.perform, hperform]
        rfl
      rw [Pass.performAll, hdevice]
      exact ih hrest

/-- Commands that take no more room than there is are carried out. -/
theorem carries_of_asks (he : d.Equipped)
    (h : Asks d.capacities lit cs lit' passes corners indices)
    (hroom : frame.Fits d lit passes corners indices) :
    ∃ frame' : DeviceFrame, (d.inFrame frame).Carries cs (d.inFrame frame') := by
  obtain ⟨hsuits, -, hpasses, hcorners, hindices⟩ := h
  have hfits : frame.Fits d lit (cs.map Command.passes).sum (cs.map Command.corners).sum
      (cs.map Command.indices).sum := by
    obtain ⟨hlit, huniforms, hvertices, htriangles⟩ := hroom
    exact ⟨hlit, by omega, by omega, by omega⟩
  clear hroom hpasses hcorners hindices
  -- What is left of the commands fits into any frame that a command before them leaves.
  induction cs generalizing lit frame with
  | nil =>
      exact ⟨frame, rfl⟩
  | cons c rest ih =>
      simp only [List.map_cons, List.sum_cons] at hfits
      obtain ⟨next, hperform, hnext⟩ := perform_of_suits he hsuits.1 hfits
      obtain ⟨last, hrest⟩ := ih hsuits.2 hnext
      exact ⟨last, _, hperform, hrest⟩

/-- A frame whose commands take no more room than there is at its beginning. -/
theorem carries_frame (he : d.Equipped)
    (h : Asks d.capacities false cs lit passes corners indices) (hpasses : passes ≤ uniformSlots)
    (hcorners : corners ≤ d.vertexRoom) (hindices : indices ≤ d.indexRoom) :
    d.Carries (.beginFrame :: (cs ++ [.endFrame])) { d with frame := none } := by
  have hroom : DeviceFrame.Fits ⟨0, 0, 0, false⟩ d false passes corners indices :=
    ⟨rfl, by simpa using hpasses, by simpa using hcorners, by simpa using hindices⟩
  obtain ⟨last, hcarries⟩ := carries_of_asks he h hroom
  exact ⟨d.inFrame ⟨0, 0, 0, false⟩, rfl, hcarries.append ⟨{ d with frame := none }, rfl, rfl⟩⟩

end GraphicsDevice

end Runs

section Textures

/-- The textures whose sizes are checked, by name. -/
def TargetSizes.checked (sizes : TargetSizes) : List (String × PixelSize) :=
  [("framebuffer", sizes.framebuffer), ("light map", sizes.lightMap),
    ("shadow atlas", sizes.shadowAtlas)]

/-- The names that a device has for them. -/
def TargetSizes.checkedNames : List String := ["framebuffer", "light map", "shadow atlas"]

theorem TargetSizes.mem_checkedNames {sizes : TargetSizes} {name : String} {size : PixelSize}
    (h : (name, size) ∈ sizes.checked) : name ∈ checkedNames :=
  List.mem_map_of_mem (f := Prod.fst) h

/-- A side is longer than a texture may be. -/
def PixelSize.Exceeds (size : PixelSize) (limit : Nat) : Prop :=
  limit < size.width ∨ limit < size.height

namespace GraphicsDevice

theorem checkSize_cases (name : String) (size : PixelSize) (d : GraphicsDevice) :
    (Yields (checkSize name size) d () d ∧ ¬size.Exceeds d.maxTextureSize) ∨
      (Refuses (checkSize name size) d (.targetTooLarge name size d.maxTextureSize) d ∧
        size.Exceeds d.maxTextureSize) := by
  by_cases hsize : d.maxTextureSize < size.width ∨ d.maxTextureSize < size.height
  · refine Or.inr ⟨(yields_get d).bind_refuses ?_, hsize⟩
    change Refuses (if d.maxTextureSize < size.width ∨ d.maxTextureSize < size.height then _ else _)
      _ _ _
    rw [if_pos hsize]
    rfl
  · refine Or.inl ⟨(yields_get d).bind ?_, hsize⟩
    change Yields (if d.maxTextureSize < size.width ∨ d.maxTextureSize < size.height then _ else _)
      _ _ _
    rw [if_neg hsize]
    exact Yields.pure () d

/-- Textures are made if none is too large; otherwise the device stays as it is. -/
theorem resizeTargets_cases {K : Type} (sizes : TargetSizes) (d : GraphicsDevice) :
    (d.perform? (.resizeTargets sizes : Command K) = (.ok (), { d with targets := some sizes }) ∧
      ∀ x ∈ sizes.checked, ¬x.2.Exceeds d.maxTextureSize) ∨
    ∃ name size, (name, size) ∈ sizes.checked ∧ size.Exceeds d.maxTextureSize ∧
      d.perform? (.resizeTargets sizes : Command K) =
        (.error (.targetTooLarge name size d.maxTextureSize), d) := by
  obtain ⟨framebuffer, lightMap, wallBleed, shadowAtlas, fovMap⟩ := sizes
  rcases checkSize_cases "framebuffer" framebuffer d with ⟨hfirst, hframebuffer⟩ | ⟨hfirst, hsize⟩
  · rcases checkSize_cases "light map" lightMap d with ⟨hsecond, hlightMap⟩ | ⟨hsecond, hsize⟩
    · rcases checkSize_cases "shadow atlas" shadowAtlas d with ⟨hthird, hatlas⟩ | ⟨hthird, hsize⟩
      · refine Or.inl ⟨hfirst.bind (hsecond.bind (hthird.bind (yields_modify _ d))), ?_⟩
        simp [TargetSizes.checked, hframebuffer, hlightMap, hatlas]
      · exact Or.inr ⟨_, _, by simp [TargetSizes.checked], hsize,
          hfirst.bind_refuses (hsecond.bind_refuses (hthird.bind _))⟩
    · exact Or.inr ⟨_, _, by simp [TargetSizes.checked], hsize,
        hfirst.bind_refuses (hsecond.bind _)⟩
  · exact Or.inr ⟨_, _, by simp [TargetSizes.checked], hsize, hfirst.bind _⟩

end GraphicsDevice

end Textures

section Texts

/-- A text whose first character is of some kind. -/
def Begins (kind : Char → Bool) (text : String) : Prop :=
  ∃ c, text.toList.head? = some c ∧ kind c = true

theorem Begins.append {kind : Char → Bool} {text : String} (h : Begins kind text) (more : String) :
    Begins kind (text ++ more) := by
  obtain ⟨c, hhead, hkind⟩ := h
  refine ⟨c, ?_, hkind⟩
  rw [String.toList_append, List.head?_append, hhead]
  rfl

theorem begins_toString (n : Nat) : Begins Char.isDigit (toString n) := by
  obtain ⟨c, rest, hdigits⟩ := List.exists_cons_of_ne_nil (Nat.toDigits_ne_nil (n := n) (b := 10))
  have hlist : (toString n).toList = c :: rest := hdigits ▸ String.toList_ofList
  refine ⟨c, congrArg List.head? hlist, ?_⟩
  refine Nat.isDigit_of_mem_toDigits (by decide) (Nat.le_refl 10) (n := n) ?_
  rw [hdigits]
  exact List.mem_cons_self ..

/-- All texts begin with a capital letter or a number, but for the one about textures. -/
theorem begins_message (refusal : Refusal)
    (h : ∀ name size limit, refusal ≠ .targetTooLarge name size limit) :
    Begins Char.isUpper refusal.message ∨ Begins Char.isDigit refusal.message := by
  cases refusal with
  | noFrame | frameEnded | noTargets | noLightPass | noAtlas =>
      exact Or.inl ⟨_, rfl, rfl⟩
  | tooManyPasses =>
      exact Or.inl (Begins.append (Begins.append ⟨'T', rfl, rfl⟩ _) _)
  | tooManyQuads room =>
      exact Or.inl (Begins.append (Begins.append ⟨'T', rfl, rfl⟩ _) _)
  | oddIndices count =>
      exact Or.inl (Begins.append ⟨'L', rfl, rfl⟩ _)
  | tooManyOccluders count room | tooManyCasters count room =>
      exact Or.inr (((begins_toString count).append _).append _)
  | targetTooLarge name size limit =>
      exact absurd rfl (h name size limit)

/-- Small letters are neither capital letters nor digits. -/
theorem not_isLower {c : Char} (h : c.isUpper = true ∨ c.isDigit = true) : ¬c.isLower = true := by
  intro hlower
  have hfirst : 'a'.val ≤ c.val := of_decide_eq_true (Bool.and_eq_true_iff.mp hlower).1
  rcases h with hupper | hdigit
  · have hlast : c.val ≤ 'Z'.val := (of_decide_eq_true hupper).2
    exact absurd (UInt32.le_trans hfirst hlast) (by decide)
  · have hlast : c.val ≤ '9'.val := of_decide_eq_true (Bool.and_eq_true_iff.mp hdigit).2
    exact absurd (UInt32.le_trans hfirst hlast) (by decide)

theorem begins_of_mem {name : String} (h : name ∈ TargetSizes.checkedNames) :
    Begins Char.isLower name := by
  simp only [TargetSizes.checkedNames, List.mem_cons, List.not_mem_nil, or_false] at h
  rcases h with rfl | rfl | rfl <;> exact ⟨_, rfl, rfl⟩

/-- The text about a texture that is too large stands for nothing else. -/
theorem eq_targetTooLarge_of_message {name : String} (hname : name ∈ TargetSizes.checkedNames)
    {size : PixelSize} {limit : Nat} {refusal : Refusal}
    (h : refusal.message = (Refusal.targetTooLarge name size limit).message) :
    ∃ name size limit, refusal = .targetTooLarge name size limit := by
  refine Classical.byContradiction fun hother => ?_
  have hlower : Begins Char.isLower refusal.message := by
    rw [h]
    exact ((((((begins_of_mem hname).append _).append _).append _).append _).append _).append _
  obtain ⟨c, hhead, hc⟩ := hlower
  refine not_isLower ?_ hc
  rcases begins_message refusal fun name size limit hsame => hother ⟨name, size, limit, hsame⟩ with
    ⟨c', hhead', hc'⟩ | ⟨c', hhead', hc'⟩
  · rw [hhead] at hhead'
    cases hhead'
    exact Or.inl hc'
  · rw [hhead] at hhead'
    cases hhead'
    exact Or.inr hc'

end Texts
end Penumbra
