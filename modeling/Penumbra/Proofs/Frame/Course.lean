import Penumbra.Frame.Renderer
import Penumbra.Proofs.Frame.Trace

/-!
# The course of a frame

The lights and the walls of a frame follow from what the caller passes and from the settings, and
its commands follow from these and from the batch that it finds.

**Results**

* `FrameCall`: what a caller passes for a frame.
* `FrameCall.scene`, `gather_eq`: its lights and walls.
* `FrameCall.trace`, `drawScene_eq`: its commands once these are known.
* `commands_eq`: the parts of a frame.
* `activeFrame_eq`, `framePass_eq`: the whole frame.
-/

namespace Penumbra

variable {K : Type}

/-- What a caller passes for a frame. -/
structure FrameCall (K : Type) where
  device : Capabilities
  index : SpatialIndex K
  eye : Eye K
  viewport : Viewport K
  lighting : MapLighting K

/-- The state with the lights and the walls of a frame. -/
def FrameState.gathered (s : FrameState K) (selection : LightSelection K)
    (geometry : OcclusionGeometry K) : FrameState K :=
  { s with
    lights := selection.lights
    instances := selection.instances
    geometry := geometry
    stats := (s.stats.addSelection selection).addGeometry geometry }

namespace FrameCall

variable [Scalar K] (call : FrameCall K) (r : Renderer K)

def pass : Pass K (Renderer K) FrameStats :=
  Renderer.drawFrame call.device call.index call.eye call.viewport call.lighting

/-- Whether the frame draws anything at all. -/
def isActive : Bool := r.isActive call.eye call.lighting

def sizes : TargetSizes := TargetSizes.new call.viewport r.limits

/-- The lights and the walls, of which there is room for a number. -/
def scene (maxOccluders : Nat) : Except Fault (LightSelection K × OcclusionGeometry K) := do
  let selection ← selectLights call.index (r.lightQuery call.eye call.viewport) r.masks
  let geometry :=
    (OcclusionGeometry.new maxOccluders).build call.index call.eye selection.expandedBounds
  geometry.check
  return (selection, geometry)

/-- What the light map depends on, besides the lights. -/
def composition (geometry : OcclusionGeometry K) : Composition K where
  eye := call.eye
  viewport := call.viewport
  ambient := call.lighting.ambient
  targetSize := (call.sizes r).lightMap
  softShadows := r.config.softShadows
  occluderCount := geometry.occluderCount
  shadowRows := r.limits.shadowRows

/-- The commands before the light map. -/
def headCommands (selection : LightSelection K) (geometry : OcclusionGeometry K) :
    List (Command K) :=
  [.uploadOcclusion geometry selection.instances fovInstances] ++
    depthCommands call.device.floatTargets geometry
      ⟨deviceWord selection.shadowCount, r.config.drawShadows, call.eye.drawFov⟩

/-- The trace of the light map and what is made of it. -/
def lightTrace (selection : LightSelection K) (geometry : OcclusionGeometry K)
    (b : LightBatch K) : Trace K :=
  let c := call.composition r geometry
  (lightPassCommands c).map (fun command => (command, b)) ++
    (drawTrace (b.drawn (c.quads selection.lights)) ++
      (shadowPassCommands c call.device.floatTargets selection.lights).map
        fun command => (command, b.clear)) ++
    (postCommands
      ⟨r.config.lightBlur, r.config.lightBlurFactor, call.viewport.cameraSize call.eye⟩).map
        fun command => (command, b.clear)

/-- The commands of the light map and of what is made of it. -/
def lightCommands (selection : LightSelection K) (geometry : OcclusionGeometry K)
    (b : LightBatch K) : List (Command K) :=
  let c := call.composition r geometry
  lightPassCommands c ++
    ((b.drawn (c.quads selection.lights)).map LightBatch.drawCommand ++
      shadowPassCommands c call.device.floatTargets selection.lights) ++
    postCommands
      ⟨r.config.lightBlur, r.config.lightBlurFactor, call.viewport.cameraSize call.eye⟩

def tailCommands : List (Command K) :=
  (if call.eye.drawFov then
    [.applyFov ⟨call.viewport.clipToDiff call.eye call.eye.position, r.fovColor⟩]
  else []) ++ [.endFrame]

/-- The batch at the end of a frame. -/
def lastBatch (b : LightBatch K) : LightBatch K := if r.config.drawLighting then b.clear else b

/-- The trace of a frame once its lights and walls are known. -/
def trace (selection : LightSelection K) (geometry : OcclusionGeometry K) (b : LightBatch K) :
    Trace K :=
  (call.headCommands r selection geometry).map (fun command => (command, b)) ++
    ((if r.config.drawLighting then call.lightTrace r selection geometry b else []) ++
      (call.tailCommands r).map fun command => (command, lastBatch r b))

/-- The command that makes textures that fit, if those that are there do not. -/
def resizeCommands (there : Option TargetSizes) : List (Command K) :=
  if there = some (call.sizes r) then [] else [.resizeTargets (call.sizes r)]

/-- That command leaves the state as it is. -/
def resizing (s : FrameState K) : List (Command K × FrameState K) :=
  (call.resizeCommands r s.targetSizes).map fun command => (command, s)

/-- The script of a frame after its beginning. -/
def sceneScript (s : FrameState K) : Script K (FrameState K) Unit :=
  match call.scene r s.geometry.maxOccluders with
  | .error fault => ⟨[], .error (.fault fault)⟩
  | .ok (selection, geometry) =>
    (s.gathered selection geometry).script (call.trace r selection geometry s.batch)
      (lastBatch r s.batch)

/-- The commands of a frame once its textures fit. -/
def commands (selection : LightSelection K) (geometry : OcclusionGeometry K) (b : LightBatch K) :
    List (Command K) :=
  .beginFrame :: (call.trace r selection geometry b).map (·.1)

/-- The counters of a frame with the draw calls of some commands. -/
def counters (selection : LightSelection K) (geometry : OcclusionGeometry K)
    (commands : List (Command K)) : FrameStats :=
  let stats := (FrameStats.zero.addSelection selection).addGeometry geometry
  { stats with drawCalls := stats.drawCalls + drawCallsOf commands }

/-- The counters and the commands of a frame that finds a batch, once its textures fit. -/
def result (b : LightBatch K) (maxOccluders : Nat) : Except Failure (FrameStats × List (Command K)) :=
  if call.isActive r then
    match call.scene r maxOccluders with
    | .error fault => .error (.fault fault)
    | .ok (selection, geometry) =>
      let commands := call.commands r selection geometry b
      .ok (counters selection geometry commands, commands)
  else .ok (FrameStats.zero, [])

end FrameCall

section Course

variable [Scalar K] (r : Renderer K) (call : FrameCall K)

/-- The lights of a frame are those that are selected, and its walls are built for them. -/
theorem scene_inv {maxOccluders : Nat} {selection : LightSelection K}
    {geometry : OcclusionGeometry K} (h : call.scene r maxOccluders = .ok (selection, geometry)) :
    selectLights call.index (r.lightQuery call.eye call.viewport) r.masks = .ok selection ∧
      geometry = (OcclusionGeometry.new maxOccluders).build call.index call.eye
        selection.expandedBounds := by
  simp only [FrameCall.scene, bind, Except.bind] at h
  split at h
  · cases h
  · next hselection =>
      split at h
      · cases h
      · cases h
        exact ⟨hselection, rfl⟩

theorem lightTrace_commands (selection : LightSelection K) (geometry : OcclusionGeometry K)
    (b : LightBatch K) :
    (call.lightTrace r selection geometry b).map (·.1) =
      call.lightCommands r selection geometry b := by
  simp only [FrameCall.lightTrace, FrameCall.lightCommands, List.map_append, map_fst_map,
    map_fst_drawTrace]

/-- The parts of a frame in their order. -/
theorem commands_eq (selection : LightSelection K) (geometry : OcclusionGeometry K)
    (b : LightBatch K) :
    call.commands r selection geometry b =
      .beginFrame :: (call.headCommands r selection geometry ++
        ((if r.config.drawLighting then call.lightCommands r selection geometry b else []) ++
          call.tailCommands r)) := by
  rw [FrameCall.commands, FrameCall.trace, List.map_append, List.map_append, map_fst_map,
    map_fst_map]
  split
  · rw [lightTrace_commands]
  · rfl

theorem gather_eq (s : FrameState K) :
    r.gather call.index call.eye call.viewport s =
      match call.scene r s.geometry.maxOccluders with
      | .error fault => ⟨[], .error (.fault fault)⟩
      | .ok (selection, geometry) =>
        ⟨[], .ok (selection.shadowCount, s.gathered selection geometry)⟩ := by
  unfold Renderer.gather FrameCall.scene
  cases hselection : selectLights call.index (r.lightQuery call.eye call.viewport) r.masks with
  | error fault =>
      rfl
  | ok selection =>
      rw [Pass.ofFault_ok_bind, Pass.modify_bind, Pass.get_bind]
      -- The walls are built anew, so that only the room for them is left of the last frame.
      cases hcheck : ((OcclusionGeometry.new s.geometry.maxOccluders).build call.index call.eye
          selection.expandedBounds).check with
      | error fault =>
          have hcheck' : (s.geometry.build call.index call.eye selection.expandedBounds).check =
              .error fault := hcheck
          rw [hcheck', Pass.ofFault_error_bind]
          simp only [bind, Except.bind, hcheck]
      | ok _ =>
          have hcheck' : (s.geometry.build call.index call.eye selection.expandedBounds).check =
              .ok () := hcheck
          rw [hcheck', Pass.ofFault_ok_bind, Pass.modify_bind]
          simp only [bind, Except.bind, hcheck]
          rfl

/-- Once its lights and walls are known a frame has its trace. -/
theorem drawScene_eq {s : FrameState K} (selection : LightSelection K)
    (geometry : OcclusionGeometry K) (hphase : s.phase = .idle) (hroom : 1 ≤ s.batch.capacity)
    (hlights : s.lights = selection.lights) (hinstances : s.instances = selection.instances)
    (hgeometry : s.geometry = geometry) :
    (do
        let s ← Pass.get
        Pass.issue (.uploadOcclusion s.geometry s.instances fovInstances)
        drawDepth call.device.floatTargets s.geometry
          ⟨deviceWord selection.shadowCount, r.config.drawShadows, call.eye.drawFov⟩
        if r.config.drawLighting then
          r.drawLight call.device call.eye call.viewport call.lighting (call.sizes r)
        if call.eye.drawFov then hideUnseen call.viewport call.eye r.fovColor
        Pass.issue .endFrame : FramePass K Unit) s =
      s.script (call.trace r selection geometry s.batch) (FrameCall.lastBatch r s.batch) := by
  subst hgeometry
  have hend : Plain (do
      if call.eye.drawFov then hideUnseen call.viewport call.eye r.fovColor
      Pass.issue .endFrame : FramePass K Unit) (call.tailCommands r) := by
    unfold FrameCall.tailCommands
    by_cases hfov : call.eye.drawFov = true
    · rw [if_pos hfov, if_pos hfov]
      exact (hideUnseen_plain call.viewport call.eye r.fovColor).bind (Plain.issue rfl)
    · rw [if_neg hfov, if_neg hfov]
      exact Plain.pure.bind (Plain.issue rfl)
  have hissue : Plain (Pass.issue (.uploadOcclusion s.geometry selection.instances fovInstances))
      [.uploadOcclusion s.geometry selection.instances fovInstances] := Plain.issue rfl
  rw [Pass.get_bind, hinstances]
  unfold FrameCall.trace FrameCall.headCommands
  rw [List.map_append, List.append_assoc]
  refine FrameState.script_bind (hissue s.batch s rfl) ?_
  refine FrameState.script_bind (drawDepth_eq _ _ _ hphase) ?_
  unfold FrameCall.lastBatch
  by_cases hlighting : r.config.drawLighting = true
  · rw [if_pos hlighting, if_pos hlighting, if_pos hlighting]
    refine FrameState.script_bind ?_ (hend s.batch.clear _ rfl)
    unfold Renderer.drawLight FrameCall.lightTrace
    rw [Pass.get_bind]
    have hcompose := (composeLights_draws (call.composition r s.geometry) call.device.floatTargets
      selection.lights hroom).bind (drawPost_plain ⟨r.config.lightBlur, r.config.lightBlurFactor,
        call.viewport.cameraSize call.eye⟩ s.batch.clear)
    rw [← hlights] at hcompose ⊢
    exact hcompose _ rfl
  · rw [if_neg hlighting, if_neg hlighting, if_neg hlighting]
    exact hend s.batch _ rfl

theorem resizeTargets_bind {α : Type} (next : Unit → FramePass K α) (s : FrameState K) :
    (Renderer.resizeTargets (call.sizes r) >>= next) s =
      ⟨call.resizing r s ++ (next () { s with targetSizes := some (call.sizes r) }).steps,
        (next () { s with targetSizes := some (call.sizes r) }).outcome⟩ := by
  change Pass.bind (Renderer.resizeTargets (call.sizes r)) next s = _
  rw [Pass.bind, Renderer.resizeTargets, Pass.get_bind, FrameCall.resizing, FrameCall.resizeCommands]
  by_cases hsizes : s.targetSizes = some (call.sizes r)
  · have hsame : { s with targetSizes := some (call.sizes r) } = s := by
      rw [← hsizes]
    rw [hsame, if_pos hsizes, hsizes, bne_self_eq_false]
    rfl
  · rw [if_neg hsizes, if_pos (bne_iff_ne.mpr hsizes)]
    rfl

theorem activeFrame_eq {s : FrameState K} (hphase : s.phase = .idle)
    (hroom : 1 ≤ s.batch.capacity) :
    r.activeFrame call.device call.index call.eye call.viewport call.lighting s =
      let opened := { s with targetSizes := some (call.sizes r) }
      ⟨call.resizing r s ++ (.beginFrame, opened) :: (call.sceneScript r opened).steps,
        (call.sceneScript r opened).outcome⟩ := by
  unfold Renderer.activeFrame
  rw [show TargetSizes.new call.viewport r.limits = call.sizes r from rfl, resizeTargets_bind,
    Pass.issue_bind]
  let opened := { s with targetSizes := some (call.sizes r) }
  have hscene : (do
      let shadowCount ← r.gather call.index call.eye call.viewport
      let s ← Pass.get
      Pass.issue (.uploadOcclusion s.geometry s.instances fovInstances)
      drawDepth call.device.floatTargets s.geometry
        ⟨deviceWord shadowCount, r.config.drawShadows, call.eye.drawFov⟩
      if r.config.drawLighting then
        r.drawLight call.device call.eye call.viewport call.lighting (call.sizes r)
      if call.eye.drawFov then hideUnseen call.viewport call.eye r.fovColor
      Pass.issue .endFrame : FramePass K Unit) opened = call.sceneScript r opened := by
    change Pass.bind (r.gather call.index call.eye call.viewport) _ opened = _
    rw [Pass.bind, gather_eq, FrameCall.sceneScript]
    cases call.scene r opened.geometry.maxOccluders with
    | error fault =>
        rfl
    | ok scene =>
        have hdraw := drawScene_eq r call scene.1 scene.2
          (s := opened.gathered scene.1 scene.2) hphase hroom rfl rfl rfl
        simp only [List.nil_append]
        exact hdraw
  rw [hscene]

/-- A frame starts its counters anew, and draws if it is active. -/
theorem framePass_eq {s : FrameState K} (hphase : s.phase = .idle)
    (hroom : 1 ≤ s.batch.capacity) :
    r.framePass call.device call.index call.eye call.viewport call.lighting s =
      let cleared := { s with stats := FrameStats.zero }
      let opened := { cleared with targetSizes := some (call.sizes r) }
      if call.isActive r then
        ⟨call.resizing r cleared ++ (.beginFrame, opened) :: (call.sceneScript r opened).steps,
          (call.sceneScript r opened).outcome.map fun x => (x.2.stats, x.2)⟩
      else ⟨[], .ok (FrameStats.zero, cleared)⟩ := by
  unfold Renderer.framePass FrameCall.isActive
  rw [Pass.modify_bind]
  by_cases hactive : r.isActive call.eye call.lighting = true
  · rw [if_pos hactive, if_pos hactive]
    have hframe := Pass.bind_get_pure
      (r.activeFrame call.device call.index call.eye call.viewport call.lighting)
      (fun s => s.stats) { s with stats := FrameStats.zero }
    rw [activeFrame_eq r call (s := { s with stats := FrameStats.zero }) hphase hroom] at hframe
    exact hframe
  · rw [if_neg hactive, if_neg hactive]
    rfl

theorem pass_eq : call.pass r =
    let script := r.framePass call.device call.index call.eye call.viewport call.lighting r.frame
    ⟨script.steps.map fun x => (x.1, { r with frame := x.2 }),
      script.outcome.map fun x => (x.1, { r with frame := x.2 })⟩ := by
  rw [FrameCall.pass, Renderer.drawFrame, Pass.get_bind]
  rfl

omit [Scalar K] in
theorem script_steps (s : FrameState K) (t : Trace K) (b : LightBatch K) :
    (s.script t b).steps.map (·.1) = t.map (·.1) := by
  induction t generalizing s with
  | nil =>
      rfl
  | cons x rest ih =>
      simp [FrameState.script, ih]

/-- The counters and the commands of a frame depend on the batch that it finds, and on nothing else
of what earlier frames changed, but for whether textures are made. -/
theorem pass_result (hphase : r.frame.phase = .idle) (hroom : 1 ≤ r.frame.batch.capacity) :
    match call.result r r.frame.batch r.frame.geometry.maxOccluders with
    | .error e => (call.pass r).outcome = .error e
    | .ok (stats, commands) =>
      (∃ r', (call.pass r).outcome = .ok (stats, r')) ∧
        (call.pass r).steps.map (·.1) =
          (if call.isActive r then call.resizeCommands r r.frame.targetSizes else []) ++
            commands := by
  rw [pass_eq, framePass_eq r call hphase hroom]
  unfold FrameCall.result
  by_cases hactive : call.isActive r = true
  · rw [if_pos hactive, if_pos hactive, if_pos hactive]
    let opened := { r.frame with stats := FrameStats.zero, targetSizes := some (call.sizes r) }
    cases hscene : call.scene r r.frame.geometry.maxOccluders with
    | error fault =>
        have hscript : call.sceneScript r opened = ⟨[], .error (.fault fault)⟩ := by
          rw [FrameCall.sceneScript, hscene]
        rw [hscript]
        rfl
    | ok scene =>
        obtain ⟨selection, geometry⟩ := scene
        have hscript : call.sceneScript r opened = (opened.gathered selection geometry).script
            (call.trace r selection geometry r.frame.batch)
            (FrameCall.lastBatch r r.frame.batch) := by
          rw [FrameCall.sceneScript, hscene]
        have hstats : ((opened.gathered selection geometry).after
            (call.trace r selection geometry r.frame.batch)
            (FrameCall.lastBatch r r.frame.batch)).stats =
            FrameCall.counters selection geometry
              (call.commands r selection geometry r.frame.batch) := by
          simp [opened, FrameState.after, FrameState.countDraws, FrameState.gathered,
            FrameCall.counters, FrameCall.commands, Trace.drawCalls, drawCallsOf,
            Command.drawCalls]
        have hresize : (call.resizing r { r.frame with stats := FrameStats.zero }).map (·.1) =
            call.resizeCommands r r.frame.targetSizes := by
          simp [FrameCall.resizing, Function.comp_def]
        rw [hscript, FrameState.script_outcome]
        refine ⟨⟨_, congrArg (fun stats => Except.ok (stats, _)) hstats⟩, ?_⟩
        rw [← hresize, FrameCall.commands, ← script_steps]
        simp only [List.map_append, List.map_cons, List.map_map, Function.comp_def]
        rfl
  · rw [if_neg hactive, if_neg hactive, if_neg hactive]
    exact ⟨⟨_, rfl⟩, rfl⟩

end Course

end Penumbra
