import Penumbra.Proofs.Frame.Log

/-!
# Between frames

Whatever a device refuses, a frame ends as it could begin: the depth phases are idle, there is as
much room as before, and the batch is the one that was refused last, if it was not drawn since.

**Results**

* `Unbatched`: commands that draw no batch of lights.
* `FrameState.Settled`, `Renderer.Between`: what holds between frames.
* `leads_trace`, `settles_framePass`: the commands of a frame keep it, and so does the frame.
* `between_drawAll`: so does any number of frames.
-/

namespace Penumbra

variable {K : Type}

section Unbatched

/-- No command draws a batch of lights. -/
def Unbatched (cs : List (Command K)) : Prop := ∀ c ∈ cs, c.batch? = none

theorem Unbatched.append {cs cs' : List (Command K)} (h : Unbatched cs) (h' : Unbatched cs') :
    Unbatched (cs ++ cs') := by
  intro c hc
  rcases List.mem_append.mp hc with hc | hc
  · exact h c hc
  · exact h' c hc

theorem unbatched_ite {p : Prop} [Decidable p] {cs : List (Command K)} (h : Unbatched cs) :
    Unbatched (if p then cs else []) := by
  split
  · exact h
  · intro c hc
    cases hc

variable [Scalar K]

theorem unbatched_depthTargetCommands (target : DepthTarget) (vertexCount instanceCount : Nat) :
    Unbatched (depthTargetCommands target vertexCount instanceCount : List (Command K)) := by
  unfold depthTargetCommands
  split <;> simp [Unbatched, Command.batch?]

theorem unbatched_depthCommands (floatTargets : Bool) (geometry : OcclusionGeometry K)
    (passes : DepthPasses) : Unbatched (depthCommands floatTargets geometry passes) := by
  have hbegin : Unbatched [.setDepthState .prepared,
      .clearDepthTarget .shadowAtlas (depthClear floatTargets) (K := K)] := by
    simp [Unbatched, Command.batch?]
  have hfov : Unbatched [.clearDepthTarget .fovMap (depthClear floatTargets) (K := K)] := by
    simp [Unbatched, Command.batch?]
  have hend : Unbatched [(.setDepthState .finalized : Command K)] := by
    simp [Unbatched, Command.batch?]
  exact (((hbegin.append (unbatched_ite (unbatched_depthTargetCommands _ _ _))).append hfov).append
    (unbatched_ite (unbatched_depthTargetCommands _ _ _))).append hend

theorem unbatched_lightPassCommands (c : Composition K) : Unbatched (lightPassCommands c) := by
  refine Unbatched.append (by simp [Unbatched, Command.batch?]) (unbatched_ite ?_)
  simp [Unbatched, Command.batch?]

theorem unbatched_shadowPassCommands (c : Composition K) (floatTargets : Bool)
    (lights : List (PointLight K)) : Unbatched (shadowPassCommands c floatTargets lights) := by
  refine Unbatched.append ?_ (by simp [Unbatched, Command.batch?])
  intro command hcommand
  obtain ⟨light, -, hlight⟩ := List.mem_filterMap.mp hcommand
  obtain ⟨found, -, rfl⟩ := Option.map_eq_some_iff.mp hlight
  rfl

omit [Scalar K] in
theorem unbatched_blurs (passes : List (BlurPass K)) :
    Unbatched (passes.map (.blur : BlurPass K → Command K)) := by
  intro command hcommand
  obtain ⟨pass, -, rfl⟩ := List.mem_map.mp hcommand
  rfl

theorem unbatched_postCommands (settings : PostSettings K) :
    Unbatched (postCommands settings) :=
  ((unbatched_ite (unbatched_blurs _)).append (unbatched_blurs _)).append
    (by simp [Unbatched, Command.batch?])

theorem unbatched_headCommands (call : FrameCall K) (r : Renderer K)
    (selection : LightSelection K) (geometry : OcclusionGeometry K) :
    Unbatched (call.headCommands r selection geometry) :=
  Unbatched.append (by simp [Unbatched, Command.batch?]) (unbatched_depthCommands _ _ _)

theorem unbatched_tailCommands (call : FrameCall K) (r : Renderer K) :
    Unbatched (call.tailCommands r) := by
  refine (unbatched_ite ?_).append ?_
  · simp [Unbatched, Command.batch?]
  · simp [Unbatched, Command.batch?]

end Unbatched

section Settled

/-- A batch with the room of another one, and with corners that a device refused. -/
def Pending (capacity : Nat) (b : LightBatch K) (old : List (LightVertex K)) : Prop :=
  b.capacity = capacity ∧ b.vertices = old

theorem quads_eq_nil {b : LightBatch K} (h : b.vertices = []) : b.quads = [] := by
  rw [LightBatch.vertices, List.flatMap_eq_nil_iff] at h
  rw [List.eq_nil_iff_forall_not_mem]
  intro q hq
  cases h q hq

/-- Between frames nothing is going on, and the batch is the one that was refused last. -/
structure FrameState.Settled (capacity maxOccluders : Nat) (s : FrameState K)
    (old : List (LightVertex K)) : Prop where
  phase : s.phase = .idle
  maxOccluders : s.geometry.maxOccluders = maxOccluders
  pending : Pending capacity s.batch old

variable {capacity maxOccluders : Nat} {old : List (LightVertex K)}

theorem leads_of_unbatched {S : Type} {I : S → List (LightVertex K) → Prop} {s : S}
    (hs : I s old) {cs : List (Command K)} (hcs : Unbatched cs) :
    Leads I old (cs.map fun c => (c, s)) old := by
  induction cs with
  | nil =>
      exact ⟨trivial, rfl⟩
  | cons c rest ih =>
      have hc : ∀ carried, leftoverAfter old (c, carried) = old := by
        intro carried
        simp [leftoverAfter, hcs c (List.mem_cons_self ..)]
      obtain ⟨hkeeps, hleftover⟩ := ih fun c' hc' => hcs c' (List.mem_cons_of_mem _ hc')
      refine ⟨⟨?_, ?_⟩, ?_⟩
      · rwa [hc]
      · rwa [hc]
      · simpa [carriedOut, hc] using hleftover

theorem keeps_drawTrace {batches : List (LightBatch K)}
    (hbatches : ∀ b ∈ batches, b.capacity = capacity) :
    Keeps (Pending capacity) old (drawTrace batches) := by
  induction batches generalizing old with
  | nil =>
      trivial
  | cons b rest ih =>
      refine ⟨⟨hbatches b (List.mem_cons_self ..), rfl⟩, ?_⟩
      exact ih fun b' hb' => hbatches b' (List.mem_cons_of_mem _ hb')

theorem foldl_leftoverAfter_drawTrace (batches : List (LightBatch K)) :
    (carriedOut (drawTrace batches)).foldl leftoverAfter old = if batches = [] then old else [] := by
  induction batches generalizing old with
  | nil =>
      rfl
  | cons b rest ih =>
      rw [if_neg (List.cons_ne_nil b rest)]
      simp only [drawTrace, carriedOut, List.map_cons, List.foldl_cons] at ih ⊢
      rw [ih]
      split <;> rfl

theorem leads_drawn {b : LightBatch K} (hb : Pending capacity b old) (qs : List (LightQuad K)) :
    Leads (Pending capacity) old (drawTrace (b.drawn qs)) [] := by
  refine ⟨keeps_drawTrace ?_, ?_⟩
  · intro b' hb'
    exact (LightBatch.drawn_capacity hb').trans hb.1
  · rw [foldl_leftoverAfter_drawTrace]
    split
    · next hnone =>
        -- Nothing is drawn only if there was nothing to draw.
        have hquads := b.drawn_quads qs
        rw [hnone] at hquads
        have hempty : b.quads = [] := (List.append_eq_nil_iff.mp hquads.symm).1
        rw [← hb.2, LightBatch.vertices, hempty]
        rfl
    · rfl

/-- A script leads where its trace leads. -/
theorem leads_script {new : List (LightVertex K)} {s : FrameState K} {t : Trace K}
    {b : LightBatch K} (hphase : s.phase = .idle)
    (hroom : s.geometry.maxOccluders = maxOccluders) (ht : Leads (Pending capacity) old t new) :
    Leads (FrameState.Settled capacity maxOccluders) old (s.script t b).steps new := by
  obtain ⟨hkeeps, hleftover⟩ := ht
  induction t generalizing s old with
  | nil =>
      exact ⟨trivial, hleftover⟩
  | cons x rest ih =>
      obtain ⟨hlater, hnew⟩ := ih (s := s.countDraws x.1.drawCalls) hphase hroom hkeeps.2 hleftover
      exact ⟨⟨⟨hphase, hroom, hkeeps.1⟩, hlater⟩, hnew⟩

section Frame

variable [Scalar K] (call : FrameCall K) (r : Renderer K)

theorem leads_lightTrace (selection : LightSelection K) (geometry : OcclusionGeometry K)
    {b : LightBatch K} (hb : Pending capacity b old) :
    Leads (Pending capacity) old (call.lightTrace r selection geometry b) [] := by
  have hclear : Pending capacity b.clear [] := ⟨hb.1, rfl⟩
  unfold FrameCall.lightTrace
  refine ((leads_of_unbatched hb (unbatched_lightPassCommands _)).append ?_).append
    (leads_of_unbatched hclear (unbatched_postCommands _))
  exact (leads_drawn hb _).append
    (leads_of_unbatched hclear (unbatched_shadowPassCommands _ _ _))

theorem leads_trace (selection : LightSelection K) (geometry : OcclusionGeometry K)
    {b : LightBatch K} (hb : Pending capacity b old) :
    Leads (Pending capacity) old (call.trace r selection geometry b)
      (FrameCall.lastBatch r b).vertices := by
  unfold FrameCall.trace FrameCall.lastBatch
  refine (leads_of_unbatched hb (unbatched_headCommands _ _ _ _)).append ?_
  by_cases hlighting : r.config.drawLighting = true
  · rw [if_pos hlighting, if_pos hlighting]
    have hclear : Pending capacity b.clear [] := ⟨hb.1, rfl⟩
    exact (leads_lightTrace call r selection geometry hb).append
      (leads_of_unbatched hclear (unbatched_tailCommands _ _))
  · rw [if_neg hlighting, if_neg hlighting, hb.2]
    exact leads_of_unbatched hb (unbatched_tailCommands _ _)

omit [Scalar K] in
theorem pending_lastBatch {b : LightBatch K} (hb : Pending capacity b old) :
    Pending capacity (FrameCall.lastBatch r b) (FrameCall.lastBatch r b).vertices := by
  refine ⟨?_, rfl⟩
  unfold FrameCall.lastBatch
  split
  · exact hb.1
  · exact hb.1

theorem scene_maxOccluders {selection : LightSelection K} {geometry : OcclusionGeometry K}
    (h : call.scene r maxOccluders = .ok (selection, geometry)) :
    geometry.maxOccluders = maxOccluders := by
  obtain ⟨-, rfl⟩ := scene_inv r call h
  rfl

theorem leads_opening {s : FrameState K} (hs : s.Settled capacity maxOccluders old) :
    Leads (FrameState.Settled capacity maxOccluders) old
      (call.resizing r s ++ [(.beginFrame, { s with targetSizes := some (call.sizes r) })]) old := by
  have hopened : { s with targetSizes := some (call.sizes r) }.Settled capacity maxOccluders old :=
    ⟨hs.phase, hs.maxOccluders, hs.pending⟩
  have hbegin : Unbatched [(.beginFrame : Command K)] := by
    simp [Unbatched, Command.batch?]
  refine Leads.append (leads_of_unbatched hs ?_) (leads_of_unbatched hopened hbegin)
  unfold FrameCall.resizeCommands
  split <;> simp [Unbatched, Command.batch?]

/-- A frame may begin between frames, and whatever is refused it ends between frames. -/
theorem settles_framePass {s : FrameState K} (hroom : 1 ≤ capacity)
    (hs : s.Settled capacity maxOccluders old) :
    (r.framePass call.device call.index call.eye call.viewport call.lighting s).Settles
      (FrameState.Settled capacity maxOccluders) s old := by
  obtain ⟨hphase, hmax, hpending⟩ := hs
  rw [framePass_eq r call hphase (by rw [hpending.1]; exact hroom)]
  let cleared := { s with stats := FrameStats.zero }
  let opened := { cleared with targetSizes := some (call.sizes r) }
  have hcleared : cleared.Settled capacity maxOccluders old := ⟨hphase, hmax, hpending⟩
  have hopening := leads_opening call r hcleared
  by_cases hactive : call.isActive r = true
  · rw [if_pos hactive]
    cases hscene : call.scene r opened.geometry.maxOccluders with
    | error fault =>
        have hscript : call.sceneScript r opened = ⟨[], .error (.fault fault)⟩ := by
          rw [FrameCall.sceneScript, hscene]
        rw [hscript]
        exact
          { keeps := hopening.keeps
            ok := by
              rintro a s' ⟨⟩
            error := by
              rintro e -
              rw [hopening.leftover_eq]
              exact ⟨hphase, hmax, hpending⟩ }
    | ok scene =>
        obtain ⟨selection, geometry⟩ := scene
        let final := FrameCall.lastBatch r s.batch
        have hmaxOccluders : geometry.maxOccluders = maxOccluders :=
          (scene_maxOccluders call r hscene).trans hmax
        have hscript : call.sceneScript r opened = (opened.gathered selection geometry).script
            (call.trace r selection geometry s.batch) final := by
          rw [FrameCall.sceneScript, hscene]
        have hsteps := hopening.append (leads_script (b := final)
          (s := opened.gathered selection geometry) hphase hmaxOccluders
          (leads_trace call r selection geometry hpending))
        rw [List.append_assoc, List.singleton_append] at hsteps
        rw [hscript, FrameState.script_outcome]
        exact
          { keeps := hsteps.keeps
            ok := by
              rintro a s' ⟨⟩
              rw [hsteps.leftover_eq]
              exact ⟨hphase, hmaxOccluders, pending_lastBatch r hpending⟩
            error := by
              rintro e ⟨⟩ }
  · rw [if_neg hactive]
    exact
      { keeps := trivial
        ok := by
          rintro a s' ⟨⟩
          exact hcleared
        error := by
          rintro e ⟨⟩ }

end Frame

end Settled

section Run

variable {D : Type} [Scalar K] [Device D K]

/-- A renderer between frames: it is what it was at the start, but for what frames change. -/
structure Renderer.Between (start r : Renderer K) (old : List (LightVertex K)) : Prop where
  same : r = { start with frame := r.frame }
  settled : r.frame.Settled start.frame.batch.capacity start.frame.geometry.maxOccluders old

theorem settles_pass (call : FrameCall K) {start r : Renderer K} {old : List (LightVertex K)}
    (hroom : 1 ≤ start.frame.batch.capacity) (hr : start.Between r old) :
    (call.pass r).Settles start.Between r old := by
  have hput : ∀ s old, s.Settled start.frame.batch.capacity start.frame.geometry.maxOccluders old →
      start.Between { r with frame := s } old := by
    intro s old hs
    refine ⟨?_, hs⟩
    rw [hr.same]
  have hframe := settles_framePass call r hroom hr.settled
  rw [pass_eq]
  have hlog : carriedOut ((r.framePass call.device call.index call.eye call.viewport call.lighting
      r.frame).steps.map fun x => (x.1, { r with frame := x.2 })) =
      carriedOut (r.framePass call.device call.index call.eye call.viewport call.lighting
        r.frame).steps := by
    simp [carriedOut, Function.comp_def]
  constructor
  · exact hframe.keeps.map hput
  · intro stats r' hok
    cases houtcome : (r.framePass call.device call.index call.eye call.viewport call.lighting
        r.frame).outcome with
    | error e =>
        simp only [houtcome] at hok
        cases hok
    | ok x =>
        simp only [houtcome] at hok
        cases hok
        rw [hlog]
        exact hput _ _ (hframe.ok houtcome)
  · intro e herror
    cases houtcome : (r.framePass call.device call.index call.eye call.viewport call.lighting
        r.frame).outcome with
    | error e' =>
        rw [hlog]
        have hsame := hput _ _ (hframe.error houtcome)
        exact hsame
    | ok x =>
        simp only [houtcome] at herror
        cases herror

/-- Whatever is refused in some frames, the renderer is then between frames. -/
theorem between_drawAll (history : List (FrameCall K)) {start r : Renderer K} {d : Logged D K}
    (hroom : 1 ≤ start.frame.batch.capacity) (hr : start.Between r (leftover d.log)) :
    start.Between (drawAll history r d).1 (leftover (drawAll history r d).2.log) := by
  induction history generalizing r d with
  | nil =>
      exact hr
  | cons call rest ih =>
      exact ih (settles_pass call hroom hr).run

end Run

end Penumbra
