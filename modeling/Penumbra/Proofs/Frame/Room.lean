import Penumbra.Proofs.Frame.DeviceRules
import Penumbra.Proofs.Frame.Scene

/-!
# The room that a frame takes

A frame takes 21 passes with uniforms at most, and one quad at most for each of its lights.  Its
commands come in their turn.

**Results**

* `asks_headCommands`, `asks_lightCommands`: the parts of a frame.
* `carries_commands`: a device with room for the lights and walls of a frame carries it out.
-/

namespace Penumbra

variable {K : Type} [Scalar K]

section Demand

variable {capacities : BufferCapacities} {lit : Bool}

theorem asks_depthTargetCommands (target : DepthTarget) (vertexCount instanceCount : Nat) :
    Asks capacities lit (depthTargetCommands (K := K) target vertexCount instanceCount) lit
      2 0 0 := by
  unfold depthTargetCommands
  split
  · exact (Asks.nil capacities lit).mono (Nat.zero_le _) (Nat.zero_le _) (Nat.zero_le _)
  · exact (Asks.single (.drawOcclusionDepth _) trivial).append
      (Asks.single (.drawOcclusionDepth _) trivial)

theorem asks_depthCommands (floatTargets : Bool) (geometry : OcclusionGeometry K)
    (passes : DepthPasses) :
    Asks capacities lit (depthCommands floatTargets geometry passes) lit 4 0 0 := by
  have hbegin : Asks capacities lit [(.setDepthState .prepared : Command K),
      .clearDepthTarget .shadowAtlas (depthClear floatTargets)] lit 0 0 0 :=
    (Asks.single (.setDepthState _) trivial).append (Asks.single (.clearDepthTarget _ _) trivial)
  exact (((hbegin.append (asks_depthTargetCommands _ _ _).ite).append
    (Asks.single (.clearDepthTarget _ _) trivial)).append
      (asks_depthTargetCommands _ _ _).ite).append (Asks.single (.setDepthState _) trivial)

theorem asks_lightPassCommands (c : Composition K) :
    Asks capacities lit (lightPassCommands c) true 3 0 0 :=
  ((Asks.single (.beginLightPass _) trivial).append (Asks.single (.drawLightingFov _) trivial)).append
    (Asks.single (.drawOccluderMask _) trivial).ite

omit [Scalar K] in
theorem length_vertices (b : LightBatch K) : b.vertices.length = 4 * b.quads.length := by
  simp [LightBatch.vertices, LightQuad.vertices, List.length_flatMap, Nat.mul_comm]

theorem length_quadIndices (count : Nat) : (quadIndices count).length = 6 * count := by
  simp [quadIndices, List.length_flatMap, Nat.mul_comm]

omit [Scalar K] in
variable (capacities) in
/-- Each quad takes four corners and two triangles. -/
theorem asks_drawCommands (batches : List (LightBatch K)) :
    Asks capacities true (batches.map LightBatch.drawCommand) true
      0 (4 * (batches.flatMap (·.quads)).length) (6 * (batches.flatMap (·.quads)).length) := by
  induction batches with
  | nil =>
      exact Asks.nil capacities true
  | cons b rest ih =>
      have hindices : b.indices.length = 6 * b.quads.length := length_quadIndices _
      have heven : b.indices.length % 2 = 0 := by omega
      have hfirst : Asks capacities true [b.drawCommand] true 0 b.vertices.length
          b.indices.length := Asks.single b.drawCommand ⟨rfl, heven⟩
      refine (hfirst.append ih).mono (Nat.le_refl _) ?_ ?_
      · rw [List.flatMap_cons, List.length_append, Nat.mul_add]
        exact Nat.add_le_add_right (Nat.le_of_eq (length_vertices b)) _
      · rw [List.flatMap_cons, List.length_append, Nat.mul_add]
        exact Nat.add_le_add_right (Nat.le_of_eq hindices) _

variable (capacities) in
theorem asks_casterCommands (c : Composition K) (floatTargets : Bool) (frame : LightFrame K)
    (lights : List (PointLight K)) :
    Asks capacities true (casterCommands c floatTargets frame lights) true
      0 (4 * lights.length) 0 := by
  induction lights with
  | nil =>
      exact Asks.nil capacities true
  | cons light rest ih =>
      unfold casterCommands at ih ⊢
      rw [List.filterMap_cons, List.length_cons, Nat.mul_succ]
      -- A light that reaches no pixel is left out.
      split
      · exact ih.mono (Nat.le_refl _) (Nat.le_add_right _ _) (Nat.le_refl _)
      · next hsome =>
          obtain ⟨found, -, rfl⟩ := Option.map_eq_some_iff.mp hsome
          rw [Nat.add_comm]
          exact (Asks.single (.drawShadowCaster _) rfl).append ih

omit [Scalar K] in
theorem asks_blurs (passes : List (BlurPass K)) :
    Asks capacities lit (passes.map (.blur : BlurPass K → Command K)) lit passes.length 0 0 := by
  induction passes with
  | nil =>
      exact Asks.nil capacities lit
  | cons pass rest ih =>
      rw [List.length_cons, Nat.add_comm]
      exact (Asks.single (.blur pass) trivial).append ih

theorem asks_postCommands (settings : PostSettings K) :
    Asks capacities lit (postCommands settings) lit 13 0 0 :=
  ((asks_blurs _).ite.append (asks_blurs _)).append (Asks.single .mergeWallBleed trivial)

end Demand

section Frame

variable {call : FrameCall K} {r : Renderer K} {maxOccluders : Nat} {selection : LightSelection K}
  {geometry : OcclusionGeometry K} {capacities : BufferCapacities}

variable (call r) in
theorem asks_headCommands (hoccluders : geometry.occluderCount ≤ capacities.maxOccluders)
    (hcasters : selection.instances.length ≤ max capacities.maxShadowLights 1) :
    Asks capacities false (call.headCommands r selection geometry) false 4 0 0 :=
  (Asks.single (.uploadOcclusion _ _ _) ⟨hoccluders, hcasters⟩).append (asks_depthCommands _ _ _)

/-- Each light has one quad at most, in a batch or by itself. -/
theorem asks_lightCommands {b : LightBatch K} (hempty : b.quads = []) :
    Asks capacities false (call.lightCommands r selection geometry b) false
      16 (4 * selection.lights.length) (6 * selection.lights.length) := by
  let c := call.composition r geometry
  let quads := c.quads selection.lights
  let casters := selection.lights.filter fun light => light.castsShadows
  have hquads : (b.drawn quads).flatMap (·.quads) = quads := by
    rw [LightBatch.drawn_quads, hempty, List.nil_append]
  have hlights : quads.length + casters.length ≤ selection.lights.length := by
    rw [selection.lights.length_eq_length_filter_add fun light => light.castsShadows, Nat.add_comm]
    exact Nat.add_le_add_left (List.length_filterMap_le _ _) _
  have hbatches := asks_drawCommands capacities (b.drawn quads)
  rw [hquads] at hbatches
  have hshadows := (asks_casterCommands capacities c call.device.floatTargets
    (LightFrame.new c.viewport c.eye c.targetSize) casters).append (Asks.single .endLightPass trivial)
  refine (((asks_lightPassCommands c).append (hbatches.append hshadows)).append
    (asks_postCommands _)).mono (Nat.le_refl _) ?_ ?_
  · change 0 + (4 * quads.length + (4 * casters.length + 0)) + 0 ≤ _
    omega
  · change 0 + (6 * quads.length + 0) + 0 ≤ _
    omega

variable (call r) in
/-- A device with room for the lights and walls of a frame carries it out. -/
theorem carries_commands (h : FrameCall.Found r maxOccluders selection geometry)
    {b : LightBatch K} (hempty : b.quads = []) {d : GraphicsDevice} (he : d.Equipped)
    (hcapacities : d.capacities = BufferCapacities.ofLimits r.limits)
    (hroom : maxOccluders = r.limits.maxOccluders) :
    d.Carries (call.commands r selection geometry b) { d with frame := none } := by
  have hoccluders : geometry.occluderCount ≤ d.capacities.maxOccluders := by
    rw [hcapacities]
    exact Nat.le_trans h.occluderCount_le (Nat.le_of_eq hroom)
  have hcasters : selection.instances.length ≤ max d.capacities.maxShadowLights 1 := by
    rw [hcapacities, h.instances_length]
    exact Nat.le_trans h.shadowCount_le (Nat.le_max_left _ _)
  have hlights : selection.lights.length ≤ max d.capacities.maxLights 1 := by
    rw [hcapacities]
    exact Nat.le_trans h.lights_le (Nat.le_max_left _ _)
  have hlight : Asks d.capacities false
      (if r.config.drawLighting then call.lightCommands r selection geometry b else []) false
      16 (4 * selection.lights.length) (6 * selection.lights.length) :=
    (asks_lightCommands hempty).ite
  have hfov : Asks d.capacities false (if call.eye.drawFov then
      [(.applyFov ⟨call.viewport.clipToDiff call.eye call.eye.position, r.fovColor⟩ : Command K)]
      else []) false 1 0 0 :=
    (Asks.single (.applyFov _) trivial).ite
  have hbody := ((asks_headCommands call r hoccluders hcasters).append hlight).append
    hfov
  rw [commands_eq, FrameCall.tailCommands, ← List.append_assoc, ← List.append_assoc]
  refine GraphicsDevice.carries_frame he hbody (by decide) ?_ ?_
  · rw [GraphicsDevice.vertexRoom]
    omega
  · rw [GraphicsDevice.indexRoom]
    omega

end Frame

end Penumbra
