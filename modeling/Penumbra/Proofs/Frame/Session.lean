import Penumbra.Proofs.Frame.Between
import Penumbra.Proofs.Frame.Outcome

/-!
# Sessions

A caller sets up a renderer for a device, and then loads masks, changes settings and draws frames in
any order.  The device may refuse whatever it likes; a renderer whose set-up fails does not exist.

What follows from the settings is made anew only where a change makes it stale.  All the same it
agrees with the settings after every request, also after one that fails.

**Results**

* `Request`, `serveAll`, `session`: what callers ask for, and how it is answered.
* `serveAll_induction`, `serveAll_ok_induction`: what each request keeps, a session keeps.
* `Renderer.InStep`, `inStep_session`: what follows from the settings agrees with them.
* `Renderer.Rested`, `rested_session`: as long as nothing fails, nothing is left of earlier frames.
-/

namespace Penumbra

variable {K : Type}

/-- What a caller asks of a renderer. -/
inductive Request (K : Type) where
  | loadMasks (device : Capabilities) (prototypes : List MaskPrototype)
      (load : String → Option Image)
  | applyConfig (config : Config K)
  | drawFrame (call : FrameCall K)

section Serve

/-- An outcome that has something in its middle. -/
theorem eq_of_isSome {α β γ : Type} {x : α × Option β × γ} (h : x.2.1.isSome = true) (b : β) :
    x = (x.1, some (x.2.1.getD b), x.2.2) := by
  obtain ⟨first, second, third⟩ := x
  obtain ⟨last, rfl⟩ := Option.isSome_iff_exists.mp h
  rfl

variable [Scalar K]

/-- The commands of a request; the counters of a frame stay in the renderer. -/
def Request.pass : Request K → Pass K (Renderer K) Unit
  | .loadMasks device prototypes load => Renderer.loadMasks device prototypes load
  | .applyConfig config => Renderer.applyConfig config
  | .drawFrame call => do
    let _ ← call.pass
    return ()

variable {D : Type} [Device D K]

/-- Serves one request after the other, failed ones included. -/
def serveAll : List (Request K) → Renderer K → D → List (Except Failure Unit) × Renderer K × D
  | [], r, d => ([], r, d)
  | request :: rest, r, d =>
    let (answer, r', d') := request.pass.run r d
    let (answers, r'', d'') := serveAll rest r' d'
    (answer :: answers, r'', d'')

/-- Sets up a renderer and serves requests; without a renderer there is only the answer why. -/
def session (config : Config K) (requests : List (Request K)) (device : D) :
    List (Except Failure Unit) × Option (Renderer K) × D :=
  match (Renderer.create config).run () device with
  | (.ok r, _, d) =>
    let (answers, r', d') := serveAll requests r d
    (.ok () :: answers, some r', d')
  | (.error e, _, d) => ([.error e], none, d)

@[simp] theorem serveAll_nil (r : Renderer K) (d : D) : serveAll [] r d = ([], r, d) := rfl

@[simp] theorem serveAll_cons (request : Request K) (rest : List (Request K)) (r : Renderer K)
    (d : D) :
    serveAll (request :: rest) r d =
      ((request.pass.run r d).1 ::
          (serveAll rest (request.pass.run r d).2.1 (request.pass.run r d).2.2).1,
        (serveAll rest (request.pass.run r d).2.1 (request.pass.run r d).2.2).2) := rfl

theorem serveAll_concat (requests : List (Request K)) (request : Request K) (r : Renderer K)
    (d : D) :
    serveAll (requests ++ [request]) r d =
      let (answers, r', d') := serveAll requests r d
      (answers ++ [(request.pass.run r' d').1], (request.pass.run r' d').2) := by
  induction requests generalizing r d with
  | nil =>
      rfl
  | cons first rest ih =>
      rw [List.cons_append, serveAll_cons, ih]
      rfl

/-- What each request keeps and answers, a session keeps and answers. -/
theorem serveAll_induction {I : Renderer K → D → Prop} {P : Except Failure Unit → Prop}
    (hstep : ∀ (request : Request K) r d, I r d →
      P (request.pass.run r d).1 ∧ I (request.pass.run r d).2.1 (request.pass.run r d).2.2)
    (requests : List (Request K)) {r : Renderer K} {d : D} (h : I r d) :
    (∀ answer ∈ (serveAll requests r d).1, P answer) ∧
      I (serveAll requests r d).2.1 (serveAll requests r d).2.2 := by
  induction requests generalizing r d with
  | nil =>
      exact ⟨fun answer hanswer => (List.not_mem_nil hanswer).elim, h⟩
  | cons request rest ih =>
      obtain ⟨hanswer, hkept⟩ := hstep request r d h
      obtain ⟨hanswers, hlast⟩ := ih hkept
      refine ⟨?_, hlast⟩
      intro answer hmem
      rcases List.mem_cons.mp hmem with rfl | hmem
      · exact hanswer
      · exact hanswers answer hmem

/-- What each request keeps when it succeeds, a session keeps in which all requests do. -/
theorem serveAll_ok_induction {I : Renderer K → Prop}
    (hstep : ∀ (request : Request K) r (d : D), I r → (request.pass.run r d).1 = .ok () →
      I (request.pass.run r d).2.1)
    (requests : List (Request K)) {r : Renderer K} {d : D} (h : I r)
    (hok : ∀ answer ∈ (serveAll requests r d).1, answer = .ok ()) :
    I (serveAll requests r d).2.1 := by
  induction requests generalizing r d with
  | nil =>
      exact h
  | cons request rest ih =>
      have hkept := hstep request r d h (hok _ (List.mem_cons_self ..))
      exact ih hkept fun answer hanswer => hok answer (List.mem_cons_of_mem _ hanswer)

/-- A device is set up for the lights and walls of the settings, and for a renderer without masks. -/
theorem create_eq (config : Config K) :
    Renderer.create config () =
      ⟨[(.resizeBuffers (BufferCapacities.ofLimits (Limits.ofConfig config)), ()),
        (.uploadMaskAtlas (Renderer.new config).masks.image, ())],
        match Renderer.reserveLights (Limits.ofConfig config) with
        | .error fault => .error (.fault fault)
        | .ok () => .ok (Renderer.new config, ())⟩ := by
  unfold Renderer.create
  rw [Pass.issue_bind, Pass.issue_bind,
    show (Renderer.new config).limits = Limits.ofConfig config from rfl]
  cases Renderer.reserveLights (Limits.ofConfig config) <;> rfl

/-- A renderer that was set up is the new one. -/
theorem eq_new_of_create {config : Config K} {device : D} {r : Renderer K}
    (h : ((Renderer.create config).run () device).1 = .ok r) : r = Renderer.new config := by
  have houtcome := Pass.outcome_of_run h
  rw [create_eq] at houtcome
  simp only at houtcome
  split at houtcome
  · cases houtcome
  · cases houtcome
    rfl

theorem session_created {config : Config K} {requests : List (Request K)} {device d' : D}
    {answers : List (Except Failure Unit)} {r : Renderer K}
    (h : session config requests device = (answers, some r, d')) :
    ((Renderer.create config).run () device).1 = .ok (Renderer.new config) := by
  unfold session at h
  split at h
  · next r₀ _ d hcreate =>
      rw [hcreate, eq_new_of_create (congrArg (·.1) hcreate)]
  · cases h

/-- What is known of a renderer that was set up. -/
theorem session_eq_some {config : Config K} {requests : List (Request K)} {device d' : D}
    {answers : List (Except Failure Unit)} {r : Renderer K}
    (h : session config requests device = (answers, some r, d')) :
    ∃ d : D, ((Renderer.create config).run () device).2.2 = d ∧
      answers = .ok () :: (serveAll requests (Renderer.new config) d).1 ∧
      (serveAll requests (Renderer.new config) d).2 = (r, d') := by
  unfold session at h
  split at h
  · next r₀ _ d hcreate =>
      have hnew := eq_new_of_create (congrArg (·.1) hcreate)
      subst hnew
      cases h
      exact ⟨d, congrArg (·.2.2) hcreate, rfl, rfl⟩
  · cases h

/-- A session that ends with a request is one without it, which then serves the request. -/
theorem session_concat {config : Config K} {requests : List (Request K)} {request : Request K}
    {device d' : D} {answers' : List (Except Failure Unit)} {r' : Renderer K}
    (h : session config (requests ++ [request]) device = (answers', some r', d')) :
    ∃ answers r d, session config requests device = (answers, some r, d) ∧
      answers' = answers ++ [(request.pass.run r d).1] ∧ (request.pass.run r d).2 = (r', d') := by
  unfold session at h ⊢
  split at h
  · next r₀ _ d₀ hcreate =>
      rw [serveAll_concat] at h
      cases h
      exact ⟨_, _, _, rfl, rfl, rfl⟩
  · cases h

end Serve

section Parts

variable [Scalar K]

/-- The renderer with other settings and with what these make stale made anew. -/
def Renderer.reconfigured (r : Renderer K) (config : Config K) : Renderer K :=
  (r.withConfig config).resized (config.changesFrom r.config)

/-- The renderer once a change of settings is through. -/
def Renderer.afterConfig (r : Renderer K) (config : Config K) : Renderer K :=
  if (config.changesFrom r.config).renderTargets then
    { r.reconfigured config with
      frame := { (r.reconfigured config).frame with targetSizes := none } }
  else r.reconfigured config

/-- A change of settings asks for buffers at most, unless there is no room for its lights. -/
theorem applyConfig_eq (config : Config K) (r : Renderer K) :
    Renderer.applyConfig config r =
      match (if (config.changesFrom r.config).lightCapacity then
          Renderer.reserveLights (r.reconfigured config).limits else .ok ()) with
      | .error fault => ⟨[], .error (.fault fault)⟩
      | .ok () =>
        ⟨if (config.changesFrom r.config).lightCapacity ||
            (config.changesFrom r.config).occluderCapacity then
          [(.resizeBuffers (BufferCapacities.ofLimits (r.reconfigured config).limits),
            r.reconfigured config)]
        else [], .ok ((), r.afterConfig config)⟩ := by
  have hnext : (r.withConfig config).resized (config.changesFrom r.config) =
      r.reconfigured config := rfl
  unfold Renderer.applyConfig Renderer.afterConfig
  rw [Pass.get_bind, Pass.modify_bind, hnext]
  generalize r.reconfigured config = next
  obtain ⟨lightCapacity, occluderCapacity, renderTargets⟩ := config.changesFrom r.config
  cases lightCapacity with
  | false =>
      cases occluderCapacity <;> cases renderTargets <;> rfl
  | true =>
      simp only [if_true, Pass.get_bind]
      cases Renderer.reserveLights next.limits with
      | error fault =>
          rfl
      | ok _ =>
          cases renderTargets <;> rfl

/-- Masks are taken over once they are uploaded. -/
theorem loadMasks_eq (device : Capabilities) (prototypes : List MaskPrototype)
    (load : String → Option Image) (r : Renderer K) :
    Renderer.loadMasks device prototypes load r =
      match MaskAtlas.build prototypes load (r.widestAtlas device) with
      | .error e => ⟨[], .error e⟩
      | .ok masks => ⟨[(.uploadMaskAtlas masks.image, r)], .ok ((), { r with masks })⟩ := by
  unfold Renderer.loadMasks
  rw [Pass.get_bind]
  cases (MaskAtlas.build prototypes load (r.widestAtlas device) : Except Failure (MaskAtlas K)) with
  | error e =>
      rfl
  | ok masks =>
      rfl

theorem drawFrame_pass (call : FrameCall K) (r : Renderer K) :
    (Request.drawFrame call).pass r =
      ⟨(call.pass r).steps, (call.pass r).outcome.map fun x => ((), x.2)⟩ := by
  change Pass.bind call.pass _ r = _
  rw [Pass.bind]
  cases (call.pass r).outcome with
  | error e =>
      rfl
  | ok x =>
      simp only [pure, Pass.pure, List.append_nil]
      rfl

/-- A frame that is asked for is drawn. -/
theorem drawFrame_run {D : Type} [Device D K] (call : FrameCall K) (r : Renderer K) (d : D) :
    (Request.drawFrame call).pass.run r d =
      ((call.pass.run r d).1.map fun _ => (), (call.pass.run r d).2) := by
  simp only [Pass.run, drawFrame_pass]
  rcases Pass.performAll (call.pass r).steps d with ⟨_ | ⟨message, left⟩, d'⟩
  · cases (call.pass r).outcome <;> rfl
  · rfl

/-- What a request leaves that succeeds. -/
def Request.Leaves (r last : Renderer K) : Request K → Prop
  | .loadMasks .. => ∃ masks, last = { r with masks }
  | .applyConfig config => last = r.afterConfig config
  | .drawFrame call => ∃ stats, (call.pass r).outcome = .ok (stats, last)

/-- What a request leaves that is refused a command. -/
def Request.LeavesRefused (r left : Renderer K) : Request K → Prop
  | .loadMasks .. => left = r
  | .applyConfig config => left = r.reconfigured config
  | .drawFrame call => ∃ c, (c, left) ∈ (call.pass r).steps

theorem leaves_of_outcome {request : Request K} {r last : Renderer K}
    (h : (request.pass r).outcome = .ok ((), last)) : request.Leaves r last := by
  cases request with
  | loadMasks device prototypes load =>
      simp only [Request.pass, loadMasks_eq] at h
      split at h
      · cases h
      · cases h
        exact ⟨_, rfl⟩
  | applyConfig config =>
      simp only [Request.pass, applyConfig_eq] at h
      split at h
      · cases h
      · cases h
        rfl
  | drawFrame call =>
      rw [drawFrame_pass] at h
      cases houtcome : (call.pass r).outcome with
      | error e =>
          rw [houtcome] at h
          cases h
      | ok x =>
          rw [houtcome] at h
          cases h
          exact ⟨x.1, houtcome⟩

theorem leavesRefused_of_mem {request : Request K} {r : Renderer K} {x : Command K × Renderer K}
    (h : x ∈ (request.pass r).steps) : request.LeavesRefused r x.2 := by
  cases request with
  | loadMasks device prototypes load =>
      simp only [Request.pass, loadMasks_eq] at h
      split at h
      · cases h
      · cases List.mem_singleton.mp h
        rfl
  | applyConfig config =>
      simp only [Request.pass, applyConfig_eq] at h
      split at h
      · cases h
      · simp only at h
        split at h
        · cases List.mem_singleton.mp h
          rfl
        · cases h
  | drawFrame call =>
      rw [drawFrame_pass] at h
      exact ⟨x.1, h⟩

end Parts

section InStep

variable [Scalar K]

/-- What follows from the settings agrees with them, and no depth pass is under way. -/
structure Renderer.InStep (r : Renderer K) : Prop where
  limits : r.limits = Limits.ofConfig r.config
  fovColor : r.fovColor = r.config.fovColorValue
  capacity : r.frame.batch.capacity = min (max r.limits.batchQuads 1) LightBatch.mostQuads
  maxOccluders : r.frame.geometry.maxOccluders = r.limits.maxOccluders
  phase : r.frame.phase = .idle

/-- Nothing is left of earlier frames. -/
structure Renderer.Rested (r : Renderer K) : Prop extends r.InStep where
  quads : r.frame.batch.quads = []

variable {r r' : Renderer K}

theorem Renderer.InStep.one_le_capacity (h : r.InStep) : 1 ≤ r.frame.batch.capacity := by
  rw [h.capacity, LightBatch.mostQuads]
  omega

theorem rested_new (config : Config K) : (Renderer.new config).Rested where
  limits := rfl
  fovColor := rfl
  capacity := rfl
  maxOccluders := rfl
  phase := rfl
  quads := rfl

/-- Settings that differ in nothing that the lights' buffers depend on. -/
theorem eq_of_lightCapacity {next previous : Config K}
    (h : (next.changesFrom previous).lightCapacity = false) :
    next.maxLightCount = previous.maxLightCount ∧
      next.maxShadowCasters = previous.maxShadowCasters ∧
      next.batchQuads = previous.batchQuads := by
  simpa [Config.changesFrom, and_assoc] using h

theorem eq_of_occluderCapacity {next previous : Config K}
    (h : (next.changesFrom previous).occluderCapacity = false) :
    next.maxOccluderCount = previous.maxOccluderCount := by
  simpa [Config.changesFrom] using h

/-- Buffers stay when a change of settings leaves their sizes alone. -/
theorem ofLimits_eq (hr : r.InStep) {config : Config K}
    (hlight : (config.changesFrom r.config).lightCapacity = false)
    (hwalls : (config.changesFrom r.config).occluderCapacity = false) :
    BufferCapacities.ofLimits (Limits.ofConfig config) = BufferCapacities.ofLimits r.limits := by
  obtain ⟨hlights, hshadows, -⟩ := eq_of_lightCapacity hlight
  have hcount := eq_of_occluderCapacity hwalls
  rw [hr.limits]
  simp only [BufferCapacities.ofLimits, Limits.ofConfig, hlights, hshadows, hcount]

/-- Settings do not differ from themselves in what buffers depend on. -/
theorem changesFrom_self (config : Config K) :
    (config.changesFrom config).lightCapacity = false ∧
      (config.changesFrom config).occluderCapacity = false := by
  simp [Config.changesFrom]

theorem limits_afterConfig (r : Renderer K) (config : Config K) :
    (r.afterConfig config).limits = Limits.ofConfig config := by
  unfold Renderer.afterConfig
  split <;> rfl

theorem inStep_reconfigured (h : r.InStep) (config : Config K) :
    (r.reconfigured config).InStep where
  limits := rfl
  fovColor := by
    change (if config.fovColor != r.config.fovColor then config.fovColorValue else r.fovColor) =
      config.fovColorValue
    split
    · rfl
    · next hcolor =>
        have hsame : config.fovColor = r.config.fovColor := by simpa using hcolor
        rw [h.fovColor, Config.fovColorValue, Config.fovColorValue, hsame]
  capacity := by
    change (if (config.changesFrom r.config).lightCapacity then
        (LightBatch.new (Limits.ofConfig config).batchQuads : LightBatch K)
      else r.frame.batch).capacity = min (max (Limits.ofConfig config).batchQuads 1) _
    split
    · rfl
    · next hlight =>
        obtain ⟨-, -, hbatch⟩ := eq_of_lightCapacity (Bool.eq_false_iff.mpr hlight)
        rw [h.capacity, h.limits]
        simp only [Limits.ofConfig, hbatch]
  maxOccluders := by
    change (if (config.changesFrom r.config).occluderCapacity then
        (OcclusionGeometry.new (Limits.ofConfig config).maxOccluders : OcclusionGeometry K)
      else r.frame.geometry).maxOccluders = (Limits.ofConfig config).maxOccluders
    split
    · rfl
    · next hwall =>
        have hcount := eq_of_occluderCapacity (Bool.eq_false_iff.mpr hwall)
        rw [h.maxOccluders, h.limits]
        simp only [Limits.ofConfig, hcount]
  phase := h.phase

theorem inStep_afterConfig (h : r.InStep) (config : Config K) : (r.afterConfig config).InStep := by
  have hnext := inStep_reconfigured h config
  unfold Renderer.afterConfig
  split
  · exact ⟨hnext.limits, hnext.fovColor, hnext.capacity, hnext.maxOccluders, hnext.phase⟩
  · exact hnext

/-- A new batch is empty, and one that stays is what it was. -/
theorem quads_afterConfig (h : r.frame.batch.quads = []) (config : Config K) :
    (r.afterConfig config).frame.batch.quads = [] := by
  have hnext : (r.reconfigured config).frame.batch.quads = [] := by
    change (if (config.changesFrom r.config).lightCapacity then
        (LightBatch.new (Limits.ofConfig config).batchQuads : LightBatch K)
      else r.frame.batch).quads = []
    split
    · rfl
    · exact h
  unfold Renderer.afterConfig
  split
  · exact hnext
  · exact hnext

theorem Renderer.InStep.between (h : r.InStep) : r.Between r r.frame.batch.vertices :=
  ⟨rfl, ⟨h.phase, rfl, ⟨rfl, rfl⟩⟩⟩

/-- Frames change nothing that follows from the settings. -/
theorem Renderer.Between.inStep {old : List (LightVertex K)} (h : r.Between r' old)
    (hr : r.InStep) : r'.InStep := by
  obtain ⟨hphase, hmax, hcapacity, -⟩ := h.settled
  rw [h.same]
  exact ⟨hr.limits, hr.fovColor, hcapacity.trans hr.capacity, hmax.trans hr.maxOccluders, hphase⟩

omit [Scalar K] in
theorem Keeps.exists_of_mem {S : Type} {I : S → List (LightVertex K) → Prop}
    {old : List (LightVertex K)} {steps : List (Command K × S)} (h : Keeps I old steps)
    {x : Command K × S} (hx : x ∈ steps) : ∃ old', I x.2 old' := by
  induction steps generalizing old with
  | nil =>
      cases hx
  | cons y rest ih =>
      rcases List.mem_cons.mp hx with rfl | hx
      · exact ⟨_, h.1⟩
      · exact ih h.2 hx

omit [Scalar K] in
/-- No batch is left over from commands that are all carried out. -/
theorem leftover_carriedOut {S : Type} (steps : List (Command K × S)) :
    (carriedOut steps).foldl leftoverAfter [] = [] := by
  induction steps with
  | nil =>
      rfl
  | cons x rest ih =>
      have hfirst : leftoverAfter [] (x.1, true) = [] := by
        unfold leftoverAfter
        split <;> rfl
      simp only [carriedOut, List.map_cons, List.foldl_cons, hfirst] at ih ⊢
      exact ih

/-- What follows from the settings agrees with them after a request that succeeds. -/
theorem inStep_of_outcome {request : Request K} (h : r.InStep) {last : Renderer K}
    (hok : (request.pass r).outcome = .ok ((), last)) : last.InStep := by
  have hlast := leaves_of_outcome hok
  cases request with
  | loadMasks device prototypes load =>
      obtain ⟨masks, rfl⟩ := hlast
      exact ⟨h.limits, h.fovColor, h.capacity, h.maxOccluders, h.phase⟩
  | applyConfig config =>
      rw [show last = r.afterConfig config from hlast]
      exact inStep_afterConfig h config
  | drawFrame call =>
      obtain ⟨stats, houtcome⟩ := hlast
      exact ((settles_pass call h.one_le_capacity h.between).ok houtcome).inStep h

/-- A request that succeeds leaves no batch behind. -/
theorem rested_of_outcome {request : Request K} (h : r.Rested) {last : Renderer K}
    (hok : (request.pass r).outcome = .ok ((), last)) : last.Rested := by
  refine ⟨inStep_of_outcome h.toInStep hok, ?_⟩
  have hlast := leaves_of_outcome hok
  cases request with
  | loadMasks device prototypes load =>
      obtain ⟨masks, rfl⟩ := hlast
      exact h.quads
  | applyConfig config =>
      rw [show last = r.afterConfig config from hlast]
      exact quads_afterConfig h.quads config
  | drawFrame call =>
      obtain ⟨stats, houtcome⟩ := hlast
      have hnone : r.frame.batch.vertices = [] := by
        rw [LightBatch.vertices, h.quads]
        rfl
      have hframe := (settles_pass call h.one_le_capacity h.between).ok houtcome
      have hleft := hframe.settled.pending.2
      rw [hnone, leftover_carriedOut] at hleft
      exact quads_eq_nil hleft

variable {D : Type} [Device D K]

/-- Whatever a device refuses of a request, what follows from the settings agrees with them. -/
theorem inStep_run (request : Request K) (h : r.InStep) (d : D) :
    (request.pass.run r d).2.1.InStep := by
  refine Pass.run_induction h ?_ (inStep_of_outcome h) d
  intro x hx
  have hleft := leavesRefused_of_mem hx
  cases request with
  | loadMasks device prototypes load =>
      rw [show x.2 = r from hleft]
      exact h
  | applyConfig config =>
      rw [show x.2 = r.reconfigured config from hleft]
      exact inStep_reconfigured h config
  | drawFrame call =>
      obtain ⟨c, hmem⟩ := hleft
      obtain ⟨old, hbetween⟩ :=
        (settles_pass call h.one_le_capacity h.between).keeps.exists_of_mem hmem
      exact hbetween.inStep h

theorem inStep_frame (call : FrameCall K) (h : r.InStep) (d : D) :
    (call.pass.run r d).2.1.InStep := by
  have hkept := inStep_run (.drawFrame call) h d
  rwa [drawFrame_run] at hkept

variable {config : Config K} {requests : List (Request K)} {device d : D}
  {answers : List (Except Failure Unit)}

/-- Whatever was refused, what follows from the settings agrees with them. -/
theorem inStep_session (h : session config requests device = (answers, some r, d)) : r.InStep := by
  obtain ⟨d₀, -, -, hserved⟩ := session_eq_some h
  have hkept := (serveAll_induction (I := fun r (_ : D) => r.InStep) (P := fun _ => True)
    (fun request r d hr => ⟨trivial, inStep_run request hr d⟩) requests (d := d₀)
    (rested_new config).toInStep).2
  rwa [hserved] at hkept

/-- As long as nothing fails, nothing is left over. -/
theorem rested_session (h : session config requests device = (answers, some r, d))
    (hok : ∀ answer ∈ answers, answer = .ok ()) : r.Rested := by
  obtain ⟨d₀, -, hanswers, hserved⟩ := session_eq_some h
  have hkept : ((serveAll requests (Renderer.new config) d₀).2.1).Rested := by
    refine serveAll_ok_induction ?_ requests (rested_new config) ?_
    · exact fun _ _ _ hr hok => rested_of_outcome hr (Pass.outcome_of_run hok)
    · intro answer hanswer
      exact hok answer (by rw [hanswers]; exact List.mem_cons_of_mem _ hanswer)
  rwa [hserved] at hkept

end InStep

end Penumbra
