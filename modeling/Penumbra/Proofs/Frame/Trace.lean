import Mathlib.Data.List.Basic
import Penumbra.Frame.Compose
import Penumbra.Frame.Depth
import Penumbra.Frame.Post

/-!
# Traces of passes

Once its lights and walls are known, all that a frame still changes are the batch and the number of
draw calls, and the draw calls follow from the commands.  So a pass is known by its trace, which is
the commands with the batch that each of them leaves if it is refused, and by the batch at its end.

**Results**

* `Command.drawCalls`: the draw calls of a command.
* `FrameState.script`, `Draws`, `Draws.bind`: passes and their traces.
* `Plain`: passes that have nothing to do with the batch.
* `drawDepth_eq`, `composeLights_draws`, `drawPost_plain`: the traces of the passes of a frame.
-/

namespace Penumbra

variable {K : Type}

/-- Draw calls that a device takes for a command.  Of the shadows only soft ones with an opacity that
is capped take a third. -/
def Command.drawCalls : Command K → Nat
  | .drawOcclusionDepth _ => 1
  | .drawLightingFov _ => 1
  | .drawOccluderMask _ => 1
  | .drawLightBatch _ _ => 1
  | .drawShadowCaster draw =>
    match draw.mode with
    | .soft true => 3
    | .soft false => 2
    | .hard _ => 2
  | .blur _ => 1
  | .mergeWallBleed => 1
  | .applyFov _ => 1
  | _ => 0

/-- A frame counts as many draw calls for a shadow as its command takes. -/
theorem drawCalls_drawShadowCaster (draw : ShadowCasterDraw K) :
    (Command.drawShadowCaster draw).drawCalls = draw.mode.drawCalls := by
  obtain ⟨quad, scissor, clampAlpha | stencilRef⟩ := draw
  · cases clampAlpha <;> rfl
  · rfl

/-- Draw calls that a device takes for commands. -/
def drawCallsOf : List (Command K) → Nat
  | [] => 0
  | c :: rest => c.drawCalls + drawCallsOf rest

/-- Commands, each with the batch that is left if it is refused. -/
abbrev Trace (K : Type) : Type := List (Command K × LightBatch K)

/-- The draw calls of all commands of a trace. -/
def Trace.drawCalls (t : Trace K) : Nat := drawCallsOf (t.map (·.1))

theorem map_fst_map {S : Type} (cs : List (Command K)) (s : S) :
    (cs.map fun c => (c, s)).map (·.1) = cs := by
  simp [Function.comp_def]

namespace FrameState

def after (s : FrameState K) (t : Trace K) (b : LightBatch K) : FrameState K :=
  { s.countDraws t.drawCalls with batch := b }

/-- The script that has a trace and a batch at its end, and counts draw calls. -/
def script (s : FrameState K) : Trace K → LightBatch K → Script K (FrameState K) Unit
  | [], b => ⟨[], .ok ((), { s with batch := b })⟩
  | (c, left) :: rest, b =>
    let later := (s.countDraws c.drawCalls).script rest b
    ⟨(c, { s with batch := left }) :: later.steps, later.outcome⟩

theorem countDraws_add (s : FrameState K) (m n : Nat) :
    (s.countDraws m).countDraws n = s.countDraws (m + n) := by
  simp [countDraws, Nat.add_assoc]

theorem script_outcome (s : FrameState K) (t : Trace K) (b : LightBatch K) :
    (s.script t b).outcome = .ok ((), s.after t b) := by
  induction t generalizing s with
  | nil =>
      rfl
  | cons x rest ih =>
      rw [script, ih]
      simp [after, Trace.drawCalls, drawCallsOf, countDraws_add]

theorem script_withBatch (s : FrameState K) (t : Trace K) (b b' : LightBatch K) :
    { s with batch := b' }.script t b = s.script t b := by
  induction t generalizing s with
  | nil =>
      rfl
  | cons x rest ih =>
      have hlater := ih (s.countDraws x.1.drawCalls)
      simp only [script]
      rw [← hlater]
      rfl

theorem script_append (s : FrameState K) (t t' : Trace K) (b b' : LightBatch K) :
    s.script (t ++ t') b' =
      ⟨(s.script t b).steps ++ ((s.after t b).script t' b').steps,
        ((s.after t b).script t' b').outcome⟩ := by
  induction t generalizing s with
  | nil =>
      have hsame := s.script_withBatch t' b' b
      simpa [script, after, Trace.drawCalls, drawCallsOf, countDraws] using hsame.symm
  | cons x rest ih =>
      have hafter : s.after (x :: rest) b = (s.countDraws x.1.drawCalls).after rest b := by
        simp [after, Trace.drawCalls, drawCallsOf, countDraws_add]
      rw [List.cons_append, script, ih, hafter]
      rfl

end FrameState

namespace Pass

variable {S α β : Type}

theorem get_bind (next : S → Pass K S α) (s : S) : (Pass.get >>= next) s = next s s := by
  change Pass.bind Pass.get next s = _
  simp [Pass.bind, Pass.get]

theorem modify_bind (f : S → S) (next : Unit → Pass K S α) (s : S) :
    (Pass.modify f >>= next) s = next () (f s) := by
  change Pass.bind (Pass.modify f) next s = _
  simp [Pass.bind, Pass.modify]

theorem issue_bind (c : Command K) (next : Unit → Pass K S α) (s : S) :
    (Pass.issue c >>= next) s = ⟨(c, s) :: (next () s).steps, (next () s).outcome⟩ := rfl

/-- Passes may be put together in any order. -/
instance : LawfulMonad (Pass K S) := LawfulMonad.mk' (Pass K S)
  (by
    intro α p
    funext s
    change Pass.bind p Pass.pure s = p s
    rw [Pass.bind]
    cases h : (p s).outcome <;> simp [Pass.pure, ← h])
  (by
    intro α β a f
    rfl)
  (by
    intro α β γ p f g
    funext s
    change Pass.bind (Pass.bind p f) g s = Pass.bind p (fun a => Pass.bind (f a) g) s
    simp only [Pass.bind]
    rcases (p s).outcome with e | ⟨a, s'⟩
    · rfl
    · simp only
      rcases (f a s').outcome with e | ⟨b, s''⟩
      · rfl
      · simp [List.append_assoc])

/-- A pass that tells something of the state at its end. -/
theorem bind_get_pure (p : Pass K S Unit) (f : S → α) (s : S) :
    (do p; let s ← Pass.get; return f s : Pass K S α) s =
      ⟨(p s).steps, (p s).outcome.map fun x => (f x.2, x.2)⟩ := by
  change Pass.bind p _ s = _
  rw [Pass.bind]
  cases (p s).outcome with
  | error e =>
      rfl
  | ok x =>
      simp only [Pass.get_bind, pure, Pass.pure, List.append_nil]
      rfl

theorem ofFault_ok_bind (a : α) (next : α → Pass K S β) (s : S) :
    (Pass.ofFault (.ok a) >>= next) s = next a s := by
  change Pass.bind (Pass.pure a) next s = _
  simp [Pass.bind, Pass.pure]

theorem ofFault_error_bind (fault : Fault) (next : α → Pass K S β) (s : S) :
    (Pass.ofFault (.error fault) >>= next) s = ⟨[], .error (.fault fault)⟩ := rfl

end Pass

/-- One pass after the other has the one trace after the other. -/
theorem FrameState.script_bind {p q : FramePass K Unit} {s : FrameState K} {t t' : Trace K}
    {b b' : LightBatch K} (hp : p s = s.script t b)
    (hq : q (s.after t b) = (s.after t b).script t' b') :
    (p >>= fun _ => q) s = s.script (t ++ t') b' := by
  change Pass.bind p (fun _ => q) s = _
  simp only [Pass.bind, hp, s.script_outcome, hq, s.script_append t t' b b']

/-- With a batch at its start a pass has a trace, and leaves a batch. -/
def Draws (p : FramePass K Unit) (b : LightBatch K) (t : Trace K) (b' : LightBatch K) : Prop :=
  ∀ s : FrameState K, s.batch = b → p s = s.script t b'

theorem Draws.bind {p q : FramePass K Unit} {b m b' : LightBatch K} {t t' : Trace K}
    (hp : Draws p b t m) (hq : Draws q m t' b') :
    Draws (p >>= fun _ => q) b (t ++ t') b' := by
  intro s hs
  exact FrameState.script_bind (hp s hs) (hq _ rfl)

/-- A pass that asks for the same commands in all states and leaves the batch alone. -/
def Plain (p : FramePass K Unit) (cs : List (Command K)) : Prop :=
  ∀ b : LightBatch K, Draws p b (cs.map fun c => (c, b)) b

namespace Plain

theorem pure : Plain (Pure.pure () : FramePass K Unit) [] := by
  rintro b s rfl
  rfl

theorem bind {p q : FramePass K Unit} {cs cs' : List (Command K)} (hp : Plain p cs)
    (hq : Plain q cs') : Plain (p >>= fun _ => q) (cs ++ cs') := by
  intro b
  rw [List.map_append]
  exact (hp b).bind (hq b)

theorem issue {c : Command K} (hc : c.drawCalls = 0) : Plain (Pass.issue c) [c] := by
  rintro b s rfl
  simp [Pass.issue, FrameState.script, FrameState.countDraws, hc]

theorem drawWith [Scalar K] (c : Command K) : Plain (drawWith c.drawCalls c) [c] := by
  rintro b s rfl
  rfl

end Plain

variable [Scalar K]

section Depth

/-- The commands that draw segments into the rows of a depth map. -/
def depthTargetCommands (target : DepthTarget) (vertexCount instanceCount : Nat) :
    List (Command K) :=
  if vertexCount = 0 ∨ instanceCount = 0 then []
  else
    [.drawOcclusionDepth ⟨target, vertexCount, instanceCount, 0.0⟩,
      .drawOcclusionDepth ⟨target, vertexCount, instanceCount, 1.0⟩]

/-- The commands of the depth maps. -/
def depthCommands (floatTargets : Bool) (geometry : OcclusionGeometry K) (passes : DepthPasses) :
    List (Command K) :=
  [.setDepthState .prepared, .clearDepthTarget .shadowAtlas (depthClear floatTargets)] ++
    (if passes.drawShadows then
      depthTargetCommands .shadowAtlas (deviceWord geometry.lightVertices.length)
        passes.shadowInstances
    else []) ++
    [.clearDepthTarget .fovMap (depthClear floatTargets)] ++
    (if passes.drawFov then
      depthTargetCommands .fovMap (deviceWord geometry.fovVertices.length) 2
    else []) ++
    [.setDepthState .finalized]

/-- From one frame to the next the phases are idle, whichever command is refused. -/
theorem drawDepth_eq (floatTargets : Bool) (geometry : OcclusionGeometry K)
    (passes : DepthPasses) {s : FrameState K} (hs : s.phase = .idle) :
    drawDepth floatTargets geometry passes s =
      s.script ((depthCommands floatTargets geometry passes).map fun c => (c, s.batch))
        s.batch := by
  obtain ⟨lights, instances, last, batch, phase, stats, targetSizes⟩ := s
  obtain ⟨shadowInstances, drawShadows, drawFov⟩ := passes
  obtain rfl : phase = .idle := hs
  unfold drawDepth Pass.onRefusal depthPhases depthCommands drawDepthTarget
    depthTargetCommands
  -- With all conditions decided both sides are the same list of commands.
  by_cases hlight : deviceWord geometry.lightVertices.length = 0 ∨ shadowInstances = 0 <;>
    by_cases hfov : deviceWord geometry.fovVertices.length = 0 ∨ 2 = 0 <;>
    cases drawShadows <;> cases drawFov <;> simp only [hlight, hfov] <;> rfl

end Depth

section Post

/-- The commands after the light map. -/
def postCommands (settings : PostSettings K) : List (Command K) :=
  (if settings.lightBlur then
    (lightBlurPasses (blurFactor settings.lightBlurFactor settings.cameraSize)).map .blur
  else []) ++
    (wallBleedPasses (blurFactor wallBleedFactor settings.cameraSize)).map .blur ++
    [.mergeWallBleed]

theorem drawBlurs_plain (passes : List (BlurPass K)) :
    Plain (drawBlurs passes) (passes.map .blur) := by
  induction passes with
  | nil =>
      exact Plain.pure
  | cons pass rest ih =>
      exact (Plain.drawWith (.blur pass)).bind ih

theorem drawPost_plain (settings : PostSettings K) :
    Plain (drawPost settings) (postCommands settings) := by
  have hrest := (drawBlurs_plain (wallBleedPasses
    (blurFactor wallBleedFactor settings.cameraSize))).bind (Plain.drawWith .mergeWallBleed)
  unfold drawPost postCommands
  rw [List.append_assoc]
  split
  · exact (drawBlurs_plain _).bind hrest
  · exact Plain.pure.bind hrest

theorem hideUnseen_plain (viewport : Viewport K) (eye : Eye K) (occludeColor : Color K) :
    Plain (hideUnseen viewport eye occludeColor)
      [.applyFov ⟨viewport.clipToDiff eye eye.position, occludeColor⟩] :=
  Plain.drawWith (.applyFov _)

end Post

section Casters

/-- The commands for the lights with shadows. -/
def casterCommands (c : Composition K) (floatTargets : Bool) (frame : LightFrame K)
    (lights : List (PointLight K)) : List (Command K) :=
  lights.filterMap fun light =>
    (frame.lightQuad? light (rowToV light.shadowRow c.shadowRows)).map fun (quad, scissor) =>
      .drawShadowCaster ⟨quad, scissor,
        if c.softShadows then .soft floatTargets else .hard (stencilRef light)⟩

theorem drawShadowCaster_plain (draw : ShadowCasterDraw K) :
    Plain (drawWith draw.mode.drawCalls (.drawShadowCaster draw)) [.drawShadowCaster draw] := by
  rw [← drawCalls_drawShadowCaster]
  exact Plain.drawWith (.drawShadowCaster draw)

theorem drawCasters_plain (c : Composition K) (floatTargets : Bool) (frame : LightFrame K)
    (lights : List (PointLight K)) :
    Plain (drawCasters c floatTargets frame lights)
      (casterCommands c floatTargets frame lights) := by
  induction lights with
  | nil =>
      exact Plain.pure
  | cons light rest ih =>
      unfold drawCasters casterCommands
      rw [List.filterMap_cons]
      cases hquad : frame.lightQuad? light (rowToV light.shadowRow c.shadowRows) with
      | none =>
          exact Plain.pure.bind ih
      | some found =>
          exact (drawShadowCaster_plain _).bind ih

end Casters

section Batch

namespace LightBatch

omit [Scalar K]

/-- The command that draws the quads of a batch. -/
def drawCommand (b : LightBatch K) : Command K := .drawLightBatch b.vertices b.indices

/-- The batch with one more quad, whether there is room or not. -/
def add (b : LightBatch K) (q : LightQuad K) : LightBatch K := { b with quads := b.quads ++ [q] }

/-- The full batches that make room for quads, and the batch with the last ones. -/
def filled (b : LightBatch K) : List (LightQuad K) → List (LightBatch K) × LightBatch K
  | [] => ([], b)
  | q :: rest =>
    if b.isFull then
      let (full, last) := (b.clear.add q).filled rest
      (b :: full, last)
    else (b.add q).filled rest

/-- The batches in which quads are drawn. -/
def drawn (b : LightBatch K) (qs : List (LightQuad K)) : List (LightBatch K) :=
  let (full, last) := b.filled qs
  full ++ if last.isEmpty then [] else [last]

theorem filled_capacity (b : LightBatch K) (qs : List (LightQuad K)) :
    (∀ b' ∈ (b.filled qs).1, b'.capacity = b.capacity) ∧
      (b.filled qs).2.capacity = b.capacity := by
  induction qs generalizing b with
  | nil =>
      exact ⟨fun b' hb' => (List.not_mem_nil hb').elim, rfl⟩
  | cons q rest ih =>
      unfold filled
      split
      · obtain ⟨hfull, hlast⟩ := ih (b.clear.add q)
        refine ⟨?_, hlast⟩
        intro b' hb'
        rcases List.mem_cons.mp hb' with rfl | hb'
        · rfl
        · exact hfull b' hb'
      · exact ih (b.add q)

theorem filled_quads (b : LightBatch K) (qs : List (LightQuad K)) :
    (b.filled qs).1.flatMap (·.quads) ++ (b.filled qs).2.quads = b.quads ++ qs := by
  induction qs generalizing b with
  | nil =>
      simp [filled]
  | cons q rest ih =>
      unfold filled
      split
      · have hrest := ih (b.clear.add q)
        simp only [List.flatMap_cons, List.append_assoc, hrest]
        rfl
      · rw [ih]
        simp [add]

theorem drawn_capacity {b b' : LightBatch K} {qs : List (LightQuad K)} (h : b' ∈ b.drawn qs) :
    b'.capacity = b.capacity := by
  obtain ⟨hfull, hlast⟩ := b.filled_capacity qs
  rcases List.mem_append.mp h with hb' | hb'
  · exact hfull b' hb'
  · split at hb'
    · cases hb'
    · rw [List.mem_singleton.mp hb']
      exact hlast

/-- Each quad is drawn once and in order, those from before first. -/
theorem drawn_quads (b : LightBatch K) (qs : List (LightQuad K)) :
    (b.drawn qs).flatMap (·.quads) = b.quads ++ qs := by
  have hfilled := b.filled_quads qs
  have hlast : (if (b.filled qs).2.isEmpty then ([] : List (LightBatch K)) else
      [(b.filled qs).2]).flatMap (·.quads) = (b.filled qs).2.quads := by
    split
    · next hempty => simpa [isEmpty] using hempty
    · simp
  rw [← hfilled, ← hlast, ← List.flatMap_append]
  rfl

end LightBatch

theorem flushBatch_draws (b : LightBatch K) :
    Draws flushBatch b (if b.isEmpty then [] else [(b.drawCommand, b)]) b.clear := by
  rintro s rfl
  rw [flushBatch, Pass.get_bind]
  cases hempty : s.batch.isEmpty with
  | true =>
      have hclear : s.batch.clear = s.batch := by
        have hquads : s.batch.quads = [] := by
          simpa [LightBatch.isEmpty] using hempty
        rw [LightBatch.clear, ← hquads]
      rw [hclear]
      rfl
  | false =>
      rfl

omit [Scalar K] in
theorem pushQuad_draws (quad : LightQuad K) {b : LightBatch K} (hb : b.isFull = false) :
    Draws (do
        let s ← Pass.get
        let batch ← Pass.ofFault (s.batch.push quad)
        Pass.modify fun s => { s with batch }) b [] (b.add quad) := by
  rintro s rfl
  have hpush : s.batch.push quad = .ok (s.batch.add quad) := by
    simp only [LightBatch.push, hb, LightBatch.add]
    rfl
  rw [Pass.get_bind, hpush]
  rfl

/-- Once a full batch is drawn there is room again. -/
theorem collectQuad_draws (quad : LightQuad K) {b : LightBatch K} (hb : 1 ≤ b.capacity) :
    Draws (collectQuad quad) b (if b.isFull then [(b.drawCommand, b)] else [])
      ((if b.isFull then b.clear else b).add quad) := by
  rintro s rfl
  rw [collectQuad, Pass.get_bind]
  cases hfull : s.batch.isFull with
  | true =>
      have hlength : s.batch.capacity ≤ s.batch.quads.length := by
        simpa [LightBatch.isFull] using hfull
      have hnonempty : s.batch.isEmpty = false := by
        cases hquads : s.batch.quads with
        | nil =>
            rw [hquads, List.length_nil] at hlength
            omega
        | cons q rest =>
            simp [LightBatch.isEmpty, hquads]
      have hroom : s.batch.clear.isFull = false := by
        have hpositive : ¬s.batch.capacity ≤ 0 := by
          omega
        simpa [LightBatch.isFull, LightBatch.clear] using hpositive
      have hflush := flushBatch_draws s.batch
      rw [hnonempty] at hflush
      exact hflush.bind (pushQuad_draws quad hroom) s rfl
  | false =>
      exact pushQuad_draws quad hfull s rfl

/-- The quads of lights without shadows. -/
def LightFrame.quads (frame : LightFrame K) (lights : List (PointLight K)) : List (LightQuad K) :=
  lights.filterMap fun light => (frame.lightQuad? light 0.0).map (·.1)

/-- Each batch leaves itself if it is refused. -/
def drawTrace (batches : List (LightBatch K)) : Trace K := batches.map fun b => (b.drawCommand, b)

omit [Scalar K] in
theorem map_fst_drawTrace (batches : List (LightBatch K)) :
    (drawTrace batches).map (·.1) = batches.map LightBatch.drawCommand := by
  simp [drawTrace, Function.comp_def]

theorem collectLights_draws (frame : LightFrame K) (lights : List (PointLight K))
    {b : LightBatch K} (hb : 1 ≤ b.capacity) :
    Draws (collectLights frame lights) b (drawTrace (b.filled (frame.quads lights)).1)
      (b.filled (frame.quads lights)).2 := by
  induction lights generalizing b with
  | nil =>
      rintro s rfl
      rfl
  | cons light rest ih =>
      unfold collectLights LightFrame.quads
      rw [List.filterMap_cons]
      cases hquad : frame.lightQuad? light 0.0 with
      | none =>
          exact (Plain.pure b).bind (ih hb)
      | some found =>
          have hfirst := collectQuad_draws found.1 hb
          rw [Option.map_some, LightBatch.filled]
          cases hfull : b.isFull with
          | true =>
              rw [hfull] at hfirst
              exact hfirst.bind (ih hb)
          | false =>
              rw [hfull] at hfirst
              exact hfirst.bind (ih hb)

/-- All quads are drawn, and an empty batch is left. -/
theorem collectLights_flushBatch_draws (frame : LightFrame K) (lights : List (PointLight K))
    {rest : FramePass K Unit} {b : LightBatch K} {t : Trace K} (hb : 1 ≤ b.capacity)
    (hrest : Draws rest b.clear t b.clear) :
    Draws (do collectLights frame lights; flushBatch; rest) b
      (drawTrace (b.drawn (frame.quads lights)) ++ t) b.clear := by
  let last := (b.filled (frame.quads lights)).2
  have hclear : last.clear = b.clear := by
    have hcapacity : last.capacity = b.capacity := (b.filled_capacity _).2
    rw [LightBatch.clear, LightBatch.clear, hcapacity]
  have hflush := flushBatch_draws last
  have hlast : drawTrace (if last.isEmpty then [] else [last]) =
      if last.isEmpty then [] else [(last.drawCommand, last)] := by
    split <;> rfl
  have hdrawn : drawTrace (b.drawn (frame.quads lights)) =
      drawTrace (b.filled (frame.quads lights)).1 ++
        if last.isEmpty then [] else [(last.drawCommand, last)] := by
    rw [← hlast, drawTrace, drawTrace, drawTrace, ← List.map_append]
    rfl
  rw [hclear] at hflush
  rw [hdrawn, List.append_assoc]
  exact (collectLights_draws frame lights hb).bind (hflush.bind hrest)

end Batch

section Compose

def lightPassCommands (c : Composition K) : List (Command K) :=
  [.beginLightPass ⟨c.ambient.withAlpha 0.0, c.targetSize⟩] ++
    [.drawLightingFov ⟨c.viewport.clipToDiff c.eye c.eye.position, Color.black⟩] ++
    if 0 < c.occluderCount then
      [.drawOccluderMask ⟨deviceWord c.occluderCount, c.viewport.eyeToClip c.eye⟩]
    else []

/-- The quads that a light map collects. -/
def Composition.quads (c : Composition K) (lights : List (PointLight K)) : List (LightQuad K) :=
  (LightFrame.new c.viewport c.eye c.targetSize).quads (lights.filter fun light => !light.castsShadows)

def shadowPassCommands (c : Composition K) (floatTargets : Bool) (lights : List (PointLight K)) :
    List (Command K) :=
  casterCommands c floatTargets (LightFrame.new c.viewport c.eye c.targetSize)
    (lights.filter fun light => light.castsShadows) ++ [.endLightPass]

/-- The beginning of the light map leaves the batch alone. -/
theorem lightPass_draws (c : Composition K) {rest : FramePass K Unit} {b b' : LightBatch K}
    {t : Trace K} (hrest : Draws rest b t b') :
    Draws (do
        Pass.issue (.beginLightPass ⟨c.ambient.withAlpha 0.0, c.targetSize⟩)
        drawWith 1 (.drawLightingFov ⟨c.viewport.clipToDiff c.eye c.eye.position, Color.black⟩)
        if 0 < c.occluderCount then
          drawWith 1 (.drawOccluderMask ⟨deviceWord c.occluderCount, c.viewport.eyeToClip c.eye⟩)
        rest) b ((lightPassCommands c).map (fun command => (command, b)) ++ t) b' := by
  unfold lightPassCommands
  rw [List.map_append, List.map_append, List.append_assoc, List.append_assoc]
  refine (Plain.issue rfl b).bind ((Plain.drawWith (.drawLightingFov _) b).bind ?_)
  by_cases hcount : 0 < c.occluderCount
  · rw [if_pos hcount, if_pos hcount]
    exact (Plain.drawWith (.drawOccluderMask _) b).bind hrest
  · rw [if_neg hcount, if_neg hcount]
    exact (Plain.pure b).bind hrest

theorem composeLights_draws (c : Composition K) (floatTargets : Bool)
    (lights : List (PointLight K)) {b : LightBatch K} (hb : 1 ≤ b.capacity) :
    Draws (composeLights c floatTargets lights) b
      ((lightPassCommands c).map (fun command => (command, b)) ++
        (drawTrace (b.drawn (c.quads lights)) ++
          (shadowPassCommands c floatTargets lights).map fun command => (command, b.clear)))
      b.clear := by
  let frame := LightFrame.new c.viewport c.eye c.targetSize
  have hcasters := (drawCasters_plain c floatTargets frame
    (lights.filter fun light => light.castsShadows)).bind (Plain.issue (c := .endLightPass) rfl)
  exact lightPass_draws c (collectLights_flushBatch_draws frame
    (lights.filter fun light => !light.castsShadows) hb (hcasters b.clear))

end Compose

end Penumbra
