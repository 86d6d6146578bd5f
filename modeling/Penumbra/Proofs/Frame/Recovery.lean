import Penumbra.Numeric.Single
import Penumbra.Proofs.Frame.Between

/-!
# Frames after refused commands

Whatever a device refuses in some frames, later frames are drawn as if those had never been, but for
one thing: a batch of lights that is refused stays, and the next frame that draws a light map draws
it before its own lights.

**Results**

* `batches_commands`, `drawnVertices_commands`: what a frame that finds a batch draws of lights
  without shadows.
* `result_of_empty`: a frame that finds a batch, and one that finds none.
* `frame_after_history`: how a frame after a run of frames differs from a first frame.
-/

namespace Penumbra

variable {K : Type}

section Batches

/-- The batches of lights that commands draw. -/
def batches (cs : List (Command K)) : List (List (LightVertex K) × List UInt16) :=
  cs.filterMap Command.batch?

theorem batches_append (cs cs' : List (Command K)) :
    batches (cs ++ cs') = batches cs ++ batches cs' :=
  List.filterMap_append

theorem batches_of_unbatched {cs : List (Command K)} (h : Unbatched cs) : batches cs = [] :=
  List.filterMap_eq_nil_iff.mpr h

theorem batches_drawTrace (bs : List (LightBatch K)) :
    batches ((drawTrace bs).map (·.1)) = bs.map fun b => (b.vertices, b.indices) := by
  induction bs with
  | nil =>
      rfl
  | cons b rest ih =>
      exact congrArg ((b.vertices, b.indices) :: ·) ih

variable [Scalar K] (call : FrameCall K) (r : Renderer K)

/-- A frame draws what it finds in the batch, and then its own lights. -/
theorem batches_commands (selection : LightSelection K) (geometry : OcclusionGeometry K)
    (b : LightBatch K) :
    batches (call.commands r selection geometry b) =
      if r.config.drawLighting then
        (b.drawn ((call.composition r geometry).quads selection.lights)).map
          fun b => (b.vertices, b.indices)
      else [] := by
  have hhead := batches_of_unbatched (unbatched_headCommands call r selection geometry)
  have htail := batches_of_unbatched (unbatched_tailCommands call r)
  have hbegin : batches (call.commands r selection geometry b) =
      batches ((call.trace r selection geometry b).map (·.1)) := rfl
  rw [hbegin, FrameCall.trace, List.map_append, List.map_append, map_fst_map, map_fst_map,
    batches_append, batches_append, hhead, htail, List.nil_append, List.append_nil]
  by_cases hlighting : r.config.drawLighting = true
  · rw [if_pos hlighting, if_pos hlighting]
    simp only [FrameCall.lightTrace, List.map_append, map_fst_map, batches_append,
      batches_drawTrace, batches_of_unbatched (unbatched_lightPassCommands _),
      batches_of_unbatched (unbatched_shadowPassCommands _ _ _),
      batches_of_unbatched (unbatched_postCommands _), List.nil_append, List.append_nil]
  · rw [if_neg hlighting, if_neg hlighting]
    rfl

def drawnVertices (cs : List (Command K)) : List (LightVertex K) := (batches cs).flatMap (·.1)

omit [Scalar K] in
/-- The corners of batches are those of the quads that they had and got. -/
theorem vertices_drawn (b : LightBatch K) (qs : List (LightQuad K)) :
    ((b.drawn qs).map fun b => (b.vertices, b.indices)).flatMap (·.1) =
      (b.quads ++ qs).flatMap LightQuad.vertices :=
  calc ((b.drawn qs).map fun b => (b.vertices, b.indices)).flatMap (·.1)
      = (b.drawn qs).flatMap LightBatch.vertices := by
        rw [List.flatMap_map]
    _ = ((b.drawn qs).flatMap (·.quads)).flatMap LightQuad.vertices := by
        rw [List.flatMap_assoc]
        rfl
    _ = (b.quads ++ qs).flatMap LightQuad.vertices := by
        rw [b.drawn_quads]

theorem drawnVertices_commands (selection : LightSelection K) (geometry : OcclusionGeometry K)
    (b : LightBatch K) :
    drawnVertices (call.commands r selection geometry b) =
      if r.config.drawLighting then
        b.vertices ++
          ((call.composition r geometry).quads selection.lights).flatMap LightQuad.vertices
      else [] := by
  rw [drawnVertices, batches_commands]
  split
  · rw [vertices_drawn, List.flatMap_append]
    rfl
  · rfl

/-- Whether the light map is drawn. -/
def FrameCall.drawsLight : Bool := call.isActive r && r.config.drawLighting

/-- A batch has quads of lights without shadows of the frame, and no other ones. -/
def FrameCall.OwnBatch (batch : List (LightVertex K) × List UInt16) : Prop :=
  ∃ quads : List (LightQuad K),
    batch = (quads.flatMap LightQuad.vertices, quadIndices quads.length) ∧
    ∀ q ∈ quads, ∃ selection light scissor,
      selectLights call.index (r.lightQuery call.eye call.viewport) r.masks = .ok selection ∧
      light ∈ selection.lights ∧ light.castsShadows = false ∧
      (LightFrame.new call.viewport call.eye (call.sizes r).lightMap).lightQuad? light 0.0 =
        some (q, scissor)

theorem commands_of_dark (hdark : r.config.drawLighting = false) (selection : LightSelection K)
    (geometry : OcclusionGeometry K) (b b' : LightBatch K) :
    call.commands r selection geometry b = call.commands r selection geometry b' := by
  simp [FrameCall.commands, FrameCall.trace, hdark, Function.comp_def]

/-- A frame that finds an empty batch draws quads of its own lights only. -/
theorem ownBatch_of_mem {b : LightBatch K} (hempty : b.quads = []) {maxOccluders : Nat}
    {selection : LightSelection K} {geometry : OcclusionGeometry K}
    (hscene : call.scene r maxOccluders = .ok (selection, geometry))
    {batch : List (LightVertex K) × List UInt16}
    (hbatch : batch ∈ batches (call.commands r selection geometry b)) :
    call.OwnBatch r batch := by
  rw [batches_commands] at hbatch
  split at hbatch
  · obtain ⟨drawn, hdrawn, rfl⟩ := List.mem_map.mp hbatch
    refine ⟨drawn.quads, rfl, ?_⟩
    intro q hq
    have hown : q ∈ (call.composition r geometry).quads selection.lights := by
      have hquads := b.drawn_quads ((call.composition r geometry).quads selection.lights)
      rw [hempty, List.nil_append] at hquads
      rw [← hquads]
      exact List.mem_flatMap.mpr ⟨drawn, hdrawn, hq⟩
    obtain ⟨light, hlight, hquad⟩ := List.mem_filterMap.mp hown
    obtain ⟨found, hfound, rfl⟩ := Option.map_eq_some_iff.mp hquad
    obtain ⟨hmem, hplain⟩ := List.mem_filter.mp hlight
    exact ⟨selection, light, found.2, (scene_inv r call hscene).1, hmem,
      by simpa using hplain, hfound⟩
  · cases hbatch

omit [Scalar K] in
theorem eq_of_empty {b b' : LightBatch K} (hcapacity : b.capacity = b'.capacity)
    (hempty : b'.quads = []) (hnone : b.vertices = []) : b = b' := by
  obtain ⟨capacity, quads⟩ := b
  obtain ⟨capacity', quads'⟩ := b'
  obtain rfl : capacity = capacity' := hcapacity
  obtain rfl : quads' = [] := hempty
  obtain rfl : quads = [] := quads_eq_nil hnone
  rfl

/-- A frame that finds a batch, and one that finds an empty one. -/
theorem result_of_empty {b b' : LightBatch K} (hcapacity : b.capacity = b'.capacity)
    (hempty : b'.quads = []) {maxOccluders : Nat} {stats : FrameStats} {cs : List (Command K)}
    (h : call.result r b maxOccluders = .ok (stats, cs)) :
    ∃ stats' cs', call.result r b' maxOccluders = .ok (stats', cs') ∧
      drawnVertices cs = (if call.drawsLight r then b.vertices else []) ++ drawnVertices cs' ∧
      (call.drawsLight r = false ∨ b.vertices = [] → cs = cs' ∧ stats = stats') ∧
      ∀ batch ∈ batches cs', call.OwnBatch r batch := by
  unfold FrameCall.result at h ⊢
  unfold FrameCall.drawsLight
  by_cases hactive : call.isActive r = true
  · rw [if_pos hactive] at h ⊢
    cases hscene : call.scene r maxOccluders with
    | error fault =>
        rw [hscene] at h
        cases h
    | ok scene =>
        obtain ⟨selection, geometry⟩ := scene
        rw [hscene] at h
        cases h
        have hvertices : b'.vertices = [] := by
          rw [LightBatch.vertices, hempty]
          rfl
        refine ⟨_, _, rfl, ?_, ?_, ?_⟩
        · rw [drawnVertices_commands, drawnVertices_commands, hactive, hvertices]
          cases r.config.drawLighting <;> simp
        · intro hsame
          have hcommands : call.commands r selection geometry b =
              call.commands r selection geometry b' := by
            rcases hsame with hdark | hnone
            · rw [hactive, Bool.true_and] at hdark
              exact commands_of_dark call r hdark selection geometry b b'
            · rw [eq_of_empty hcapacity hempty hnone]
          rw [hcommands]
          exact ⟨rfl, rfl⟩
        · intro batch hbatch
          exact ownBatch_of_mem call r hempty hscene hbatch
  · rw [if_neg hactive] at h ⊢
    cases h
    refine ⟨_, _, rfl, ?_, fun _ => ⟨rfl, rfl⟩, ?_⟩
    · simp [hactive]
    · intro batch hbatch
      cases hbatch

end Batches

section History

def Command.isResize : Command K → Bool
  | .resizeTargets _ => true
  | _ => false

/-- Commands but for those that make textures. -/
def unsized (cs : List (Command K)) : List (Command K) := cs.filter fun c => !c.isResize

theorem unsized_resize [Scalar K] (call : FrameCall K) (r : Renderer K) (p : Bool)
    (there : Option TargetSizes) (cs : List (Command K)) :
    unsized ((if p then call.resizeCommands r there else []) ++ cs) = unsized cs := by
  have hnone : unsized (if p then call.resizeCommands r there else []) = [] := by
    unfold FrameCall.resizeCommands
    split
    · split <;> rfl
    · rfl
  rw [unsized, List.filter_append]
  exact congrArg (· ++ unsized cs) hnone

theorem batches_unsized (cs : List (Command K)) : batches (unsized cs) = batches cs := by
  have hskip : (fun c : Command K => if (!c.isResize) = true then c.batch? else none) =
      Command.batch? := by
    funext c
    cases c <;> rfl
  rw [batches, unsized, List.filterMap_filter, hskip]
  rfl

theorem batches_resize [Scalar K] (call : FrameCall K) (r : Renderer K) (p : Bool)
    (there : Option TargetSizes) (cs : List (Command K)) :
    batches ((if p then call.resizeCommands r there else []) ++ cs) = batches cs := by
  rw [← batches_unsized, unsized_resize, batches_unsized]

/-- What a frame finds in its batch shows, if it draws it. -/
theorem unsized_eq_iff {cs cs₀ : List (Command K)} {stats stats₀ : FrameStats} {lit : Bool}
    {old : List (LightVertex K)}
    (hdrawn : drawnVertices cs = (if lit then old else []) ++ drawnVertices cs₀)
    (hsame : lit = false ∨ old = [] → cs = cs₀ ∧ stats = stats₀) :
    (unsized cs = unsized cs₀ ∧ stats = stats₀) ↔ (lit = false ∨ old = []) := by
  constructor
  · rintro ⟨hcommands, -⟩
    have hvertices : drawnVertices cs = drawnVertices cs₀ := by
      rw [drawnVertices, ← batches_unsized, hcommands, batches_unsized]
      rfl
    rw [hvertices, List.self_eq_append_left] at hdrawn
    cases lit with
    | false =>
        exact Or.inl rfl
    | true =>
        exact Or.inr hdrawn
  · intro hcondition
    obtain ⟨hcommands, hstats⟩ := hsame hcondition
    exact ⟨by rw [hcommands], hstats⟩

variable {D : Type} [Scalar K] [Device D K]

theorem Renderer.Between.result_eq {start r : Renderer K} {old : List (LightVertex K)}
    (h : start.Between r old) (call : FrameCall K) (b : LightBatch K) (maxOccluders : Nat) :
    call.result r b maxOccluders = call.result start b maxOccluders := by
  have hsame := congrArg (fun r' => call.result r' b maxOccluders) h.same
  exact hsame

/-- The renderer for a configuration with masks, before its first frame. -/
def Renderer.withMasks (config : Config K) (masks : MaskAtlas K) : Renderer K :=
  { Renderer.new config with masks }

theorem one_le_capacity (config : Config K) (masks : MaskAtlas K) :
    1 ≤ (Renderer.withMasks config masks).frame.batch.capacity := by
  simp only [Renderer.withMasks, Renderer.new, FrameState.new, LightBatch.new, LightBatch.mostQuads]
  omega

/-- A renderer after a run of frames, and the device with its log. -/
def afterFrames (config : Config K) (masks : MaskAtlas K) (device : D)
    (history : List (FrameCall K)) : Renderer K × Logged D K :=
  drawAll history (Renderer.withMasks config masks) (Logged.new device)

/-- A frame that meets no refusal, after a run of frames in which a device refused whatever it
liked, is compared with the same frame as the first one of all.  It draws the batch that was
refused last before its own lights, so that its commands and counters are the same exactly if no
batch was left or no light map is drawn; then each batch that it draws is of its own lights. -/
theorem frame_after_history (config : Config K) (masks : MaskAtlas K) (device : D)
    (history : List (FrameCall K)) (call : FrameCall K) (stats : FrameStats)
    (hok : (call.pass.run (afterFrames config masks device history).1
      (afterFrames config masks device history).2).1 = .ok stats) :
    let start := Renderer.withMasks config masks
    let before := afterFrames config masks device history
    let after := call.pass.run before.1 before.2
    let first := call.pass.run start (Logged.new (Recorder.new call.device : Recorder K))
    let old := leftover before.2.log
    ∃ commands commands₀ stats₀,
      after.2.2.log = before.2.log ++ commands.map (fun c => (c, true)) ∧
      first.1 = .ok stats₀ ∧ first.2.2.log = commands₀.map (fun c => (c, true)) ∧
      drawnVertices commands =
        (if call.drawsLight start then old else []) ++ drawnVertices commands₀ ∧
      ((unsized commands = unsized commands₀ ∧ stats = stats₀) ↔
        (call.drawsLight start = false ∨ old = [])) ∧
      (call.drawsLight start = false ∨ old = [] →
        ∀ batch ∈ batches commands, call.OwnBatch start batch) := by
  intro start before after first old
  have hroom : 1 ≤ start.frame.batch.capacity := one_le_capacity config masks
  have hstart : start.Between start (leftover (Logged.new (K := K) device).log) :=
    ⟨rfl, ⟨rfl, rfl, ⟨rfl, rfl⟩⟩⟩
  have hbefore : start.Between before.1 old := between_drawAll history hroom hstart
  obtain ⟨hphase, hmax, hcapacity, hvertices⟩ := hbefore.settled
  obtain ⟨⟨r', hend⟩, hlog⟩ := Pass.outcome_of_run_ok hok
  have houtcome : (call.pass before.1).outcome = .ok (stats, r') := hend
  have hpass := pass_result before.1 call hphase (by rw [hcapacity]; exact hroom)
  rw [hbefore.result_eq, hmax] at hpass
  have hfirst := pass_result start call rfl hroom
  cases hresult : call.result start before.1.frame.batch start.frame.geometry.maxOccluders with
  | error e =>
      rw [hresult, houtcome] at hpass
      cases hpass
  | ok x =>
      obtain ⟨stats', cs⟩ := x
      rw [hresult, houtcome] at hpass
      obtain ⟨⟨_, hstats⟩, hsteps⟩ := hpass
      cases hstats
      have hempty : start.frame.batch.quads = [] := rfl
      obtain ⟨stats₀, cs₀, hresult₀, hdrawn, hsame, hown⟩ :=
        result_of_empty call start hcapacity hempty hresult
      simp only [hresult₀] at hfirst
      obtain ⟨⟨_, houtcome₀⟩, hsteps₀⟩ := hfirst
      obtain ⟨hok₀, hlog₀⟩ := Pass.run_recorder
        (d := Logged.new (Recorder.new call.device : Recorder K)) rfl houtcome₀
      let resize := if call.isActive before.1 then
        call.resizeCommands before.1 before.1.frame.targetSizes else []
      let resize₀ := if call.isActive start then
        call.resizeCommands start start.frame.targetSizes else []
      have hbatches : batches (resize ++ cs) = batches cs := batches_resize ..
      have hbatches₀ : batches (resize₀ ++ cs₀) = batches cs₀ := batches_resize ..
      have hlogged : after.2.2.log = before.2.log ++ (resize ++ cs).map fun c => (c, true) := by
        rw [hlog, carriedOut_eq, hsteps]
      have hlogged₀ : first.2.2.log = (resize₀ ++ cs₀).map fun c => (c, true) := by
        rw [hlog₀, carriedOut_eq, hsteps₀]
        rfl
      rw [hvertices] at hdrawn hsame
      have hdrawn' : drawnVertices (resize ++ cs) =
          (if call.drawsLight start then old else []) ++ drawnVertices (resize₀ ++ cs₀) := by
        rw [drawnVertices, drawnVertices, hbatches, hbatches₀]
        exact hdrawn
      refine ⟨resize ++ cs, resize₀ ++ cs₀, stats₀, hlogged, hok₀, hlogged₀, hdrawn', ?_, ?_⟩
      · have hunsized : unsized (resize ++ cs) = unsized cs := unsized_resize ..
        have hunsized₀ : unsized (resize₀ ++ cs₀) = unsized cs₀ := unsized_resize ..
        rw [hunsized, hunsized₀]
        exact unsized_eq_iff hdrawn hsame
      · intro hcondition batch hbatch
        rw [hbatches, (hsame hcondition).1] at hbatch
        exact hown batch hbatch

/-- A frame that finds one light without shadows right ahead. -/
def lampAhead : FrameCall Float32 where
  device := Recorder.generous
  index :=
    { lights _ _ := [⟨⟨1⟩, { Light.standard with castShadows := false }, Pose.identity⟩]
      occluders _ _ := [] }
  eye := ⟨Vec2.zero, ⟨1⟩, 0.0, Vec2.one, true, true⟩
  viewport := ⟨⟨64, 64⟩, Vec2.one⟩
  lighting := ⟨true, Color.black⟩

/-- A device that refuses the tenth command and no other one. -/
def refusesTenth : Recorder Float32 := { Recorder.new Recorder.generous with failAfter := some 9 }

/-- The renderer and the device after a frame that was refused its batch. -/
def refusedLamp : Renderer Float32 × Logged (Recorder Float32) Float32 :=
  afterFrames Config.standard MaskAtlas.empty refusesTenth [lampAhead]

theorem frame_after_refusedLamp :
    (lampAhead.pass.run refusedLamp.1 refusedLamp.2).1 = .ok ⟨1, 0, 0, 0, 16⟩ ∧
      (leftover refusedLamp.2.log).length = 4 ∧
      ∃ commands commands₀ : List (Command Float32), ∃ stats₀,
        (lampAhead.pass.run refusedLamp.1 refusedLamp.2).2.2.log =
          refusedLamp.2.log ++ commands.map (fun c => (c, true)) ∧
        (lampAhead.pass.run (Renderer.withMasks Config.standard MaskAtlas.empty)
          (Logged.new (Recorder.new lampAhead.device : Recorder Float32))).2.2.log =
            commands₀.map (fun c => (c, true)) ∧
        drawnVertices commands = leftover refusedLamp.2.log ++ drawnVertices commands₀ ∧
        ¬(unsized commands = unsized commands₀ ∧ (⟨1, 0, 0, 0, 16⟩ : FrameStats) = stats₀) := by
  have hok : (lampAhead.pass.run refusedLamp.1 refusedLamp.2).1 = .ok ⟨1, 0, 0, 0, 16⟩ := by
    decide +kernel
  have hlength : (leftover refusedLamp.2.log).length = 4 := by
    decide +kernel
  have hlight : lampAhead.drawsLight (Renderer.withMasks Config.standard MaskAtlas.empty) = true := by
    decide +kernel
  have hbefore : afterFrames Config.standard MaskAtlas.empty refusesTenth [lampAhead] =
      refusedLamp := rfl
  obtain ⟨commands, commands₀, stats₀, hlog, -, hlog₀, hdrawn, hsame, -⟩ :=
    frame_after_history Config.standard MaskAtlas.empty refusesTenth [lampAhead] lampAhead _ hok
  rw [hlight, if_pos rfl, hbefore] at hdrawn
  rw [hlight, hbefore] at hsame
  rw [hbefore] at hlog
  refine ⟨hok, hlength, commands, commands₀, stats₀, hlog, hlog₀, hdrawn, ?_⟩
  rw [hsame]
  rintro (hdark | hnone)
  · cases hdark
  · rw [hnone] at hlength
    cases hlength

end History

end Penumbra
