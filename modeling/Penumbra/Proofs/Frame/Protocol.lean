import Penumbra.Proofs.Frame.Scene
import Penumbra.Proofs.World.Action

/-!
# The order of the commands of a frame

A frame has its commands in one order, whatever is switched on and whatever there is to draw.  What
is not needed is left out, and nothing else is.

**Results**

* `FrameCall.protocol`: the commands in their order.
* `FrameCall.Found.keepsWords`: no number of a frame is too large for a device.
* `commands_eq_protocol`, `pass_commands`: a frame has these commands.
* `frame_protocol`: what a device that refuses nothing records of a frame.
-/

namespace Penumbra

section Order

variable {K : Type} [Scalar K]

/-- Segments drawn for both sides of the seam. -/
def bothSides (target : DepthTarget) (segments instances : Nat) : List (Command K) :=
  [.drawOcclusionDepth ⟨target, segments * verticesPerSegment, instances, 0.0⟩,
    .drawOcclusionDepth ⟨target, segments * verticesPerSegment, instances, 1.0⟩]

variable (call : FrameCall K) (r : Renderer K)

/-- The commands of the light map and of what follows from it. -/
def FrameCall.lightProtocol (maskQuads : Nat)
    (batches : List (List (LightVertex K) × List UInt16)) (casters : List (ShadowCasterDraw K)) :
    List (Command K) :=
  let cameraSize := call.viewport.cameraSize call.eye
  [Command.beginLightPass ⟨call.lighting.ambient.withAlpha 0.0, (call.sizes r).lightMap⟩,
    .drawLightingFov ⟨call.viewport.clipToDiff call.eye call.eye.position, Color.black⟩] ++
    (if 0 < maskQuads then
      [Command.drawOccluderMask ⟨maskQuads, call.viewport.eyeToClip call.eye⟩]
    else []) ++
    batches.map (fun batch => Command.drawLightBatch batch.1 batch.2) ++
    casters.map Command.drawShadowCaster ++
    [Command.endLightPass] ++
    (if r.config.lightBlur then
      (lightBlurPasses (blurFactor r.config.lightBlurFactor cameraSize)).map Command.blur
    else []) ++
    (wallBleedPasses (blurFactor wallBleedFactor cameraSize)).map Command.blur ++
    [Command.mergeWallBleed]

/-- The commands of a frame that draws, once its textures fit. -/
def FrameCall.protocol (geometry : OcclusionGeometry K) (instances : List (DepthInstance K))
    (batches : List (List (LightVertex K) × List UInt16)) (casters : List (ShadowCasterDraw K)) :
    List (Command K) :=
  let clear := depthClear call.device.floatTargets
  [Command.beginFrame, .uploadOcclusion geometry instances fovInstances, .setDepthState .prepared,
    .clearDepthTarget .shadowAtlas clear] ++
    (if r.config.drawShadows && (instances.length != 0 && geometry.lightSegmentCount != 0) then
      bothSides .shadowAtlas geometry.lightSegmentCount instances.length
    else []) ++
    [Command.clearDepthTarget .fovMap clear] ++
    (if call.eye.drawFov && geometry.fovSegmentCount != 0 then
      bothSides .fovMap geometry.fovSegmentCount 2
    else []) ++
    [Command.setDepthState .finalized] ++
    (if r.config.drawLighting then
      call.lightProtocol r geometry.occluderCount batches casters
    else []) ++
    (if call.eye.drawFov then
      [Command.applyFov ⟨call.viewport.clipToDiff call.eye call.eye.position, r.fovColor⟩]
    else []) ++
    [Command.endFrame]

omit [Scalar K] in
theorem isActive_iff :
    call.isActive r = true ↔ r.config.enabled = true ∧ call.eye.drawLight = true ∧
      call.eye.map ≠ MapId.nowhere ∧ call.lighting.enabled = true := by
  simp [FrameCall.isActive, Renderer.isActive, and_assoc]

theorem depthTargetCommands_eq (target : DepthTarget) {vertices segments : Nat} (instances : Nat)
    (h : vertices = segments * verticesPerSegment) :
    depthTargetCommands (K := K) target vertices instances =
      if instances != 0 && segments != 0 then bothSides target segments instances else [] := by
  subst h
  by_cases hinstances : instances = 0
  · simp [depthTargetCommands, hinstances]
  · by_cases hsegments : segments = 0
    · simp [depthTargetCommands, hsegments]
    · have hvertices : segments * verticesPerSegment ≠ 0 := Nat.mul_ne_zero hsegments (by decide)
      simp [depthTargetCommands, bothSides, hinstances, hsegments, hvertices]

theorem if_if_eq {α : Type} (p q : Bool) (x y : α) :
    (if p then (if q then x else y) else y) = if p && q then x else y := by
  cases p <;> rfl

variable {call r} {maxOccluders : Nat} {selection : LightSelection K} {geometry : OcclusionGeometry K}

/-- The numbers of a frame keep all of their bits on the way to a device. -/
structure KeepsWords (selection : LightSelection K) (geometry : OcclusionGeometry K) : Prop where
  casters : deviceWord selection.shadowCount = selection.shadowCount
  walls : deviceWord geometry.occluderCount = geometry.occluderCount
  lightVertices : deviceWord geometry.lightVertices.length = geometry.lightVertices.length
  fovVertices : deviceWord geometry.fovVertices.length = geometry.fovVertices.length

theorem Renderer.InStep.maxShadowLights_le (h : r.InStep) :
    r.limits.maxShadowLights ≤ Limits.mostShadowLights := by
  rw [h.limits]
  exact Nat.min_le_right _ _

theorem Renderer.InStep.maxOccluders_le (h : r.InStep) :
    r.frame.geometry.maxOccluders ≤ Limits.mostOccluders := by
  rw [h.maxOccluders, h.limits]
  exact Nat.min_le_right _ _

/-- Few lights with shadows and few walls with eight vertices each are all that there is room for. -/
theorem FrameCall.Found.keepsWords (hr : r.InStep)
    (h : FrameCall.Found r r.frame.geometry.maxOccluders selection geometry) :
    KeepsWords selection geometry := by
  have hcasters := Nat.le_trans h.shadowCount_le hr.maxShadowLights_le
  have hwalls := hr.maxOccluders_le
  have hcount := h.occluderCount_le
  have hlight := h.sized.light_le_fov
  have hfov := h.sized.fov_le
  simp only [Limits.mostShadowLights, Limits.mostOccluders] at hcasters hwalls
  constructor <;> exact Nat.mod_eq_of_lt (by omega)

theorem headCommands_eq (h : FrameCall.Found r maxOccluders selection geometry)
    (hwords : KeepsWords selection geometry) :
    call.headCommands r selection geometry =
      [Command.uploadOcclusion geometry selection.instances fovInstances, .setDepthState .prepared,
        .clearDepthTarget .shadowAtlas (depthClear call.device.floatTargets)] ++
        (if r.config.drawShadows && (selection.instances.length != 0 &&
            geometry.lightSegmentCount != 0) then
          bothSides .shadowAtlas geometry.lightSegmentCount selection.instances.length
        else []) ++
        [Command.clearDepthTarget .fovMap (depthClear call.device.floatTargets)] ++
        (if call.eye.drawFov && geometry.fovSegmentCount != 0 then
          bothSides .fovMap geometry.fovSegmentCount 2
        else []) ++
        [Command.setDepthState .finalized] := by
  have hlight := depthTargetCommands_eq (K := K) .shadowAtlas selection.shadowCount
    h.sized.light_length
  have hfov := depthTargetCommands_eq (K := K) .fovMap 2 h.sized.fov_length
  unfold FrameCall.headCommands depthCommands
  simp only [hwords.casters, hwords.lightVertices, hwords.fovVertices, hlight, hfov, if_if_eq,
    h.instances_length]
  rfl

/-- The draw of a light with shadows, `none` when the light reaches no pixel. -/
def casterDraw? (c : Composition K) (floatTargets : Bool) (frame : LightFrame K)
    (light : PointLight K) : Option (ShadowCasterDraw K) :=
  (frame.lightQuad? light (rowToV light.shadowRow c.shadowRows)).map fun found =>
    ⟨found.1, found.2, if c.softShadows then .soft floatTargets else .hard (stencilRef light)⟩

def casterDraws (c : Composition K) (floatTargets : Bool) (frame : LightFrame K)
    (lights : List (PointLight K)) : List (ShadowCasterDraw K) :=
  lights.filterMap (casterDraw? c floatTargets frame)

/-- The lights with shadows are drawn one by one. -/
theorem casterCommands_eq (c : Composition K) (floatTargets : Bool) (frame : LightFrame K)
    (lights : List (PointLight K)) :
    casterCommands c floatTargets frame lights =
      (casterDraws c floatTargets frame lights).map .drawShadowCaster := by
  rw [casterCommands, casterDraws, List.map_filterMap]
  simp only [casterDraw?, Option.map_map]
  rfl

variable (call r selection geometry) in
/-- The draws of the lights with shadows in a frame. -/
def FrameCall.casters : List (ShadowCasterDraw K) :=
  let c := call.composition r geometry
  casterDraws c call.device.floatTargets (LightFrame.new c.viewport c.eye c.targetSize)
    (selection.lights.filter (·.castsShadows))

variable (call r selection) in
theorem lightCommands_eq (hword : deviceWord geometry.occluderCount = geometry.occluderCount)
    (b : LightBatch K) :
    call.lightCommands r selection geometry b =
      call.lightProtocol r geometry.occluderCount
        ((b.drawn ((call.composition r geometry).quads selection.lights)).map
          fun b => (b.vertices, b.indices))
        (call.casters r selection geometry) := by
  let c := call.composition r geometry
  rw [FrameCall.lightCommands, show call.composition r geometry = c from rfl, shadowPassCommands,
    casterCommands_eq]
  simp only [lightPassCommands, postCommands, FrameCall.lightProtocol, FrameCall.casters, c,
    FrameCall.composition, hword, List.map_map, List.append_assoc]
  rfl

variable (call) in
/-- A frame has its commands in their order, with its own batches and shadows. -/
theorem commands_eq_ownProtocol (hr : r.InStep)
    (h : FrameCall.Found r r.frame.geometry.maxOccluders selection geometry) (b : LightBatch K) :
    call.commands r selection geometry b =
      call.protocol r geometry selection.instances
        ((b.drawn ((call.composition r geometry).quads selection.lights)).map
          fun b => (b.vertices, b.indices))
        (call.casters r selection geometry) := by
  have hwords := h.keepsWords hr
  rw [commands_eq, lightCommands_eq call r selection hwords.walls b, headCommands_eq h hwords,
    FrameCall.tailCommands, FrameCall.protocol]
  simp only [List.append_assoc, List.cons_append, List.nil_append]

variable (call) in
/-- A frame has its commands in their order. -/
theorem commands_eq_protocol (hr : r.InStep)
    (h : FrameCall.Found r r.frame.geometry.maxOccluders selection geometry) (b : LightBatch K) :
    ∃ batches casters, call.commands r selection geometry b =
      call.protocol r geometry selection.instances batches casters :=
  ⟨_, _, commands_eq_ownProtocol call hr h b⟩

/-- The commands of a frame that draws nothing, that finds no lights and walls, and that draws. -/
theorem pass_commands (hr : r.InStep) (call : FrameCall K) :
    call.pass.commands r = [] ∨
      call.pass.commands r = call.resizeCommands r r.frame.targetSizes ++ [.beginFrame] ∨
      ∃ selection geometry, call.isActive r = true ∧
        call.scene r r.frame.geometry.maxOccluders = .ok (selection, geometry) ∧
        call.pass.commands r = call.resizeCommands r r.frame.targetSizes ++
          call.protocol r geometry selection.instances
            ((r.frame.batch.drawn ((call.composition r geometry).quads selection.lights)).map
              fun b => (b.vertices, b.indices))
            (call.casters r selection geometry) := by
  cases hactive : call.isActive r with
  | false =>
      rw [Pass.commands, pass_of_inactive hr hactive]
      exact Or.inl rfl
  | true =>
      cases hscene : call.scene r r.frame.geometry.maxOccluders with
      | error fault =>
          exact Or.inr (Or.inl (pass_of_fault hr hactive hscene).1)
      | ok scene =>
          obtain ⟨selection, geometry⟩ := scene
          refine Or.inr (Or.inr ⟨selection, geometry, rfl, rfl, ?_⟩)
          rw [(pass_of_scene hr hactive hscene).1,
            commands_eq_ownProtocol call hr (found_of_scene hscene)]

end Order

section Frame

variable {D : Type} [Device D Float32] {config : Config Float32}
  {requests : List (Request Float32)} {device d : D} {answers : List (Except Failure Unit)}
  {r : Renderer Float32} {recorder : Recorder Float32}

/-- A frame of any session, carried out by a device that refuses nothing.  Unless all is switched on
it records nothing.  Otherwise its commands are in their order, with at most one command for textures
before them.  Only for a view that is nowhere, and lights all the same, it ends after its beginning;
no world has such lights.  `Answered` is what the index documents: it answers the lights whose bounds
meet the box of the view, so that a box whose sides are not in order gets none. -/
theorem frame_protocol (h : session config requests device = (answers, some r, d))
    (hrecorder : recorder.failAfter = none) (call : FrameCall Float32) :
    let frame := call.pass.run r recorder
    let active := r.config.enabled = true ∧ call.eye.drawLight = true ∧
      call.eye.map ≠ MapId.nowhere ∧ call.lighting.enabled = true
    (¬active → frame.1 = .ok FrameStats.zero ∧ frame.2.2 = recorder) ∧
      (active → ∃ resize, (resize = [] ∨ resize = [.resizeTargets (call.sizes r)]) ∧
        (call.Answered → ∃ geometry instances batches casters stats,
          frame.1 = .ok stats ∧
          frame.2.2 = recorder.keeping
            (resize ++ call.protocol r geometry instances batches casters) ∧
          stats.shadowLights = instances.length ∧ stats.occluders = geometry.occluderCount ∧
          stats.drawCalls = drawCallsOf (call.protocol r geometry instances batches casters)) ∧
        (¬call.Answered → frame.1 = .error (.fault .unorderedInterval) ∧
          frame.2.2 = recorder.keeping (resize ++ [.beginFrame]))) ∧
      ∀ w : World Float32, call.index = w.index → call.Answered := by
  intro frame active
  have hstep := inStep_session h
  have hactive : call.isActive r = true ↔ active := isActive_iff call r
  have hframe : frame = ((call.pass.ending r).1, (call.pass.ending r).2,
      recorder.keeping (call.pass.commands r)) := call.pass.run_recording r hrecorder
  refine ⟨?_, ?_, fun w hw => w.answered hw⟩
  · intro hinactive
    have hpass := pass_of_inactive hstep
      (Bool.eq_false_iff.mpr fun hdraws => hinactive (hactive.mp hdraws))
    rw [hframe, Pass.ending, Pass.commands, hpass]
    exact ⟨rfl, by simp [Recorder.keeping]⟩
  · intro hdraws
    have hdraws := hactive.mpr hdraws
    refine ⟨call.resizeCommands r r.frame.targetSizes, ?_, ?_, ?_⟩
    · unfold FrameCall.resizeCommands
      split
      · exact Or.inl rfl
      · exact Or.inr rfl
    · intro hanswered
      obtain ⟨selection, geometry, hscene⟩ :=
        exists_scene hanswered r r.frame.geometry.maxOccluders
      have hfound := found_of_scene hscene
      obtain ⟨batches, casters, hprotocol⟩ :=
        commands_eq_protocol call hstep hfound r.frame.batch
      obtain ⟨hcommands, r', houtcome⟩ := pass_of_scene hstep hdraws hscene
      rw [hprotocol] at hcommands houtcome
      let stats := FrameCall.counters selection geometry
        (call.protocol r geometry selection.instances batches casters)
      refine ⟨geometry, selection.instances, batches, casters, stats, ?_, ?_, ?_, ?_, ?_⟩
      · rw [hframe, Pass.ending, houtcome]
      · rw [hframe, hcommands]
      · rw [hfound.instances_length]
        exact Nat.zero_add _
      · exact Nat.zero_add _
      · exact Nat.zero_add _
    · intro hnowhere
      obtain ⟨hcommands, houtcome⟩ := pass_of_not_answered hstep hdraws hnowhere
      rw [hframe, Pass.ending, houtcome, hcommands]
      exact ⟨rfl, rfl⟩

/-- A world of two lights, of which one casts shadows, and a wall. -/
def twoLights : World Float32 :=
  ((World.empty : World Float32).run
    [.addTree ⟨1⟩ Pose.identity,
      .spawnLight ⟨0⟩ (Pose.ofPosition ⟨2.0, 0.0⟩) Light.standard,
      .spawnLight ⟨0⟩ Pose.identity { Light.standard with castShadows := false },
      .spawnOccluder ⟨0⟩ (Pose.ofPosition ⟨1.0, 1.0⟩) Occluder.tile]).1

/-- A view of that world. -/
def twoLightsView : FrameCall Float32 where
  device := Recorder.generous
  index := twoLights.index
  eye := ⟨Vec2.zero, ⟨1⟩, 0.0, Vec2.one, true, true⟩
  viewport := ⟨⟨64, 64⟩, Vec2.one⟩
  lighting := ⟨true, Color.black⟩

/-- A session that begins without light and draws a frame with it. -/
def litLater : List (Except Failure Unit) × Option (Renderer Float32) × Recorder Float32 :=
  session { Config.standard with drawLighting := false }
    [.applyConfig Config.standard, .drawFrame twoLightsView] (Recorder.new Recorder.generous)

/-- The renderer of that session. -/
def litRenderer : Renderer Float32 := litLater.2.1.getD (Renderer.new Config.standard)

theorem frame_protocol_twoLights :
    litLater = (litLater.1, some litRenderer, litLater.2.2) ∧ litLater.2.2.failAfter = none ∧
      (twoLightsView.pass.run litRenderer litLater.2.2).1 = .ok ⟨2, 1, 0, 1, 24⟩ ∧
      ∃ resize geometry instances batches casters,
        (twoLightsView.pass.run litRenderer litLater.2.2).2.2 = litLater.2.2.keeping
          (resize ++ twoLightsView.protocol litRenderer geometry instances batches casters) ∧
        instances.length = 1 ∧ geometry.occluderCount = 1 := by
  have hlit : litLater.2.1.isSome = true ∧ litLater.2.2.failAfter = none ∧
      litRenderer.config.enabled = true ∧
      (twoLightsView.pass.run litRenderer litLater.2.2).1 = .ok ⟨2, 1, 0, 1, 24⟩ := by
    decide +kernel
  obtain ⟨hsome, hrecorder, henabled, hok⟩ := hlit
  have hsession : litLater = (litLater.1, some litRenderer, litLater.2.2) := eq_of_isSome hsome _
  obtain ⟨-, hdraws, hworld⟩ := frame_protocol hsession hrecorder twoLightsView
  obtain ⟨resize, -, hcommands, -⟩ := hdraws ⟨henabled, by decide⟩
  obtain ⟨geometry, instances, batches, casters, stats, hstats, hkeeping, hshadow, hwalls, -⟩ :=
    hcommands (hworld twoLights rfl)
  rw [hok] at hstats
  cases hstats
  exact ⟨hsession, hrecorder, hok, resize, geometry, instances, batches, casters, hkeeping,
    hshadow.symm, hwalls.symm⟩

end Frame

end Penumbra
