import Penumbra.Proofs.Frame.Refusal
import Penumbra.Proofs.Frame.Room

/-!
# Frames that keep the rules of a device

A renderer asks a device for nothing out of turn, and for no more room than it made before.  Only
textures may be too large, and then the device stays ready for the next frame.

**Results**

* `Renderer.Ready`: a renderer and a device that is ready for it.
* `drawFrame_cases`: a frame is carried out, or it needs a texture that is too large.
* `ready_run`: after each request the device is ready for the next one.
* `session_refusals`: all that a device ever refuses.
-/

namespace Penumbra

variable {K : Type} [Scalar K]

section Ready

/-- A device has all that a renderer counts on. -/
structure Renderer.Ready (r : Renderer K) (d : GraphicsDevice) (limit : Nat) : Prop where
  rested : r.Rested
  hasAtlas : d.hasAtlas = true
  capacities : d.capacities = BufferCapacities.ofLimits r.limits
  targets : r.frame.targetSizes.isSome = true → d.targets.isSome = true
  maxTextureSize : d.maxTextureSize = limit

variable {r : Renderer K} {d d' : GraphicsDevice} {limit : Nat}

theorem Renderer.Rested.withStats (h : r.Rested) (stats : FrameStats) :
    { r with frame := { r.frame with stats } }.Rested :=
  ⟨⟨h.limits, h.fovColor, h.capacity, h.maxOccluders, h.phase⟩, h.quads⟩

theorem Renderer.Ready.withStats (h : r.Ready d limit) (stats : FrameStats) :
    { r with frame := { r.frame with stats } }.Ready d limit :=
  ⟨h.rested.withStats stats, h.hasAtlas, h.capacities, h.targets, h.maxTextureSize⟩

omit [Scalar K] in
theorem run_of_carries {S α : Type} {p : Pass K S α} {s : S} (h : d.Carries (p.commands s) d') :
    p.run s d = ((p.ending s).1, (p.ending s).2, d') :=
  Pass.run_eq_ending p s (GraphicsDevice.performAll_of_carries h)

/-- A device carries out all of a request, and is then ready for the next one. -/
structure Request.Carried (request : Request K) (r : Renderer K) (d d' : GraphicsDevice)
    (limit : Nat) : Prop where
  carries : d.Carries (request.pass.commands r) d'
  ok : ∀ last, (request.pass r).outcome = .ok ((), last) → last.Ready d' limit
  error : ∀ e, (request.pass r).outcome = .error e → r.Ready d' limit

theorem Request.Carried.ready {request : Request K} (h : request.Carried r d d' limit) :
    (request.pass.run r d).2.1.Ready (request.pass.run r d).2.2 limit := by
  rw [run_of_carries h.carries, Pass.ending]
  cases houtcome : (request.pass r).outcome with
  | error e =>
      exact h.error e houtcome
  | ok x =>
      exact h.ok x.2 houtcome

theorem build_ne_backend (prototypes : List MaskPrototype) (load : String → Option Image)
    (maxSize : Nat) (message : String) :
    (MaskAtlas.build prototypes load maxSize : Except Failure (MaskAtlas K)) ≠
      .error (.error (.backend message)) := by
  intro h
  simp only [MaskAtlas.build] at h
  split at h
  · cases h
  · split at h
    · cases h
    · split at h <;> cases h

theorem pass_ne_backend (call : FrameCall K) (hr : r.InStep) (message : String) :
    (call.pass r).outcome ≠ .error (.error (.backend message)) := by
  intro h
  cases hactive : call.isActive r with
  | false =>
      rw [pass_of_inactive hr hactive] at h
      cases h
  | true =>
      cases hscene : call.scene r r.frame.geometry.maxOccluders with
      | error fault =>
          rw [(pass_of_fault hr hactive hscene).2] at h
          cases h
      | ok scene =>
          obtain ⟨-, r', houtcome⟩ := pass_of_scene hr hactive hscene
          rw [houtcome] at h
          cases h

/-- No request fails by itself with an error of the device. -/
theorem outcome_ne_backend (request : Request K) (hr : r.InStep) (message : String) :
    (request.pass r).outcome ≠ .error (.error (.backend message)) := by
  intro h
  cases request with
  | loadMasks device prototypes load =>
      have hbuild := build_ne_backend (K := K) prototypes load (r.widestAtlas device) message
      simp only [Request.pass, loadMasks_eq] at h
      split at h
      · next hfailed =>
          cases h
          exact hbuild hfailed
      · cases h
  | applyConfig config =>
      simp only [Request.pass, applyConfig_eq] at h
      split at h <;> cases h
  | drawFrame call =>
      have hpass := pass_ne_backend call hr message
      rw [drawFrame_pass] at h
      cases houtcome : (call.pass r).outcome with
      | error e =>
          rw [houtcome] at h hpass
          cases h
          exact hpass rfl
      | ok x =>
          rw [houtcome] at h
          cases h

theorem Request.Carried.ne_backend {request : Request K} (h : request.Carried r d d' limit)
    (hr : r.InStep) (message : String) :
    (request.pass.run r d).1 ≠ .error (.error (.backend message)) := by
  intro hanswer
  rw [run_of_carries h.carries, Pass.ending] at hanswer
  have hother := outcome_ne_backend request hr message
  cases houtcome : (request.pass r).outcome with
  | error e =>
      rw [houtcome] at hanswer hother
      cases hanswer
      exact hother rfl
  | ok x =>
      rw [houtcome] at hanswer
      cases hanswer

theorem carried_loadMasks (h : r.Ready d limit) (device : Capabilities)
    (prototypes : List MaskPrototype) (load : String → Option Image) :
    ∃ d', (Request.loadMasks device prototypes load).Carried r d d' limit := by
  have hscript := loadMasks_eq device prototypes load r
  cases hbuild : (MaskAtlas.build prototypes load (r.widestAtlas device) :
      Except Failure (MaskAtlas K)) with
  | error e =>
      rw [hbuild] at hscript
      refine ⟨d, ?_, ?_, fun _ _ => h⟩
      · simp only [Request.pass, Pass.commands, hscript]
        rfl
      · intro last hlast
        simp only [Request.pass, hscript] at hlast
        cases hlast
  | ok masks =>
      rw [hbuild] at hscript
      refine ⟨{ d with hasAtlas := true }, ?_, ?_, ?_⟩
      · simp only [Request.pass, Pass.commands, hscript]
        exact ⟨_, rfl, rfl⟩
      · intro last hlast
        have hrested := rested_of_outcome h.rested hlast
        simp only [Request.pass, hscript] at hlast
        cases hlast
        exact ⟨hrested, rfl, h.capacities, h.targets, h.maxTextureSize⟩
      · intro e he
        simp only [Request.pass, hscript] at he
        cases he

/-- Other settings are fine with buffers for them, and with textures that are there already. -/
theorem Renderer.Ready.afterConfig (h : r.Ready d limit) (config : Config K) :
    (r.afterConfig config).Ready
      { d with capacities := BufferCapacities.ofLimits (Limits.ofConfig config) } limit := by
  obtain ⟨⟨hr, hquads⟩, hatlas, -, htargets, hsize⟩ := h
  refine ⟨⟨inStep_afterConfig hr config, quads_afterConfig hquads config⟩, hatlas, ?_, ?_, hsize⟩
  · rw [limits_afterConfig]
  · unfold Renderer.afterConfig
    split
    · intro hnone
      cases hnone
    · exact htargets

theorem carried_applyConfig (h : r.Ready d limit) (config : Config K) :
    ∃ d', (Request.applyConfig config).Carried r d d' limit := by
  have hscript := applyConfig_eq config r
  have hafter := h.afterConfig config
  split at hscript
  · refine ⟨d, ?_, ?_, fun _ _ => h⟩
    · simp only [Request.pass, Pass.commands, hscript]
      rfl
    · intro last hlast
      simp only [Request.pass, hscript] at hlast
      cases hlast
  · refine ⟨{ d with capacities := BufferCapacities.ofLimits (Limits.ofConfig config) }, ?_, ?_, ?_⟩
    · simp only [Request.pass, Pass.commands, hscript]
      split
      · exact ⟨_, rfl, rfl⟩
      · next hsame =>
          obtain ⟨hlight, hwalls⟩ := Bool.or_eq_false_iff.mp (Bool.eq_false_iff.mpr hsame)
          rw [ofLimits_eq h.rested.toInStep hlight hwalls, ← h.capacities]
          rfl
    · intro last hlast
      simp only [Request.pass, hscript] at hlast
      cases hlast
      exact hafter
    · intro e he
      simp only [Request.pass, hscript] at he
      cases he

/-- A device with textures carries out a frame once these fit. -/
theorem exists_carries_rest (hr : r.Rested) {call : FrameCall K} (hactive : call.isActive r = true)
    (he : d.Equipped) (hcapacities : d.capacities = BufferCapacities.ofLimits r.limits) :
    ∃ rest frame, call.pass.commands r = call.resizeCommands r r.frame.targetSizes ++ rest ∧
      d.Carries rest { d with frame } := by
  cases hscene : call.scene r r.frame.geometry.maxOccluders with
  | error fault =>
      obtain ⟨hcommands, -⟩ := pass_of_fault hr.toInStep hactive hscene
      exact ⟨_, some ⟨0, 0, 0, false⟩, hcommands, _, rfl, rfl⟩
  | ok scene =>
      obtain ⟨selection, geometry⟩ := scene
      obtain ⟨hcommands, -⟩ := pass_of_scene hr.toInStep hactive hscene
      exact ⟨_, none, hcommands, carries_commands call r (found_of_scene hscene) hr.quads he
        hcapacities hr.maxOccluders⟩

/-- Textures are there already, or they are made, or one of them is too large. -/
theorem resize_cases (h : r.Ready d limit) (call : FrameCall K) :
    (∃ d', d.Carries (call.resizeCommands r r.frame.targetSizes) d' ∧ d'.Equipped ∧
      ∃ targets, d' = { d with targets }) ∨
    ∃ name size, (name, size) ∈ (call.sizes r).checked ∧ size.Exceeds limit ∧
      call.resizeCommands r r.frame.targetSizes = [.resizeTargets (call.sizes r)] ∧
      d.perform? (.resizeTargets (call.sizes r) : Command K) =
        (.error (.targetTooLarge name size limit), d) := by
  unfold FrameCall.resizeCommands
  split
  · next hsizes =>
      refine Or.inl ⟨d, rfl, ⟨h.targets ?_, h.hasAtlas⟩, d.targets, rfl⟩
      rw [hsizes]
      rfl
  · rcases GraphicsDevice.resizeTargets_cases (K := K) (call.sizes r) d with
      ⟨hmade, -⟩ | ⟨name, size, hname, hsize, hrefused⟩
    · exact Or.inl ⟨_, ⟨_, hmade, rfl⟩, ⟨rfl, h.hasAtlas⟩, _, rfl⟩
    · rw [h.maxTextureSize] at hsize hrefused
      exact Or.inr ⟨name, size, hname, hsize, rfl, hrefused⟩

theorem drawFrame_commands (call : FrameCall K) (r : Renderer K) :
    (Request.drawFrame call).pass.commands r = call.pass.commands r := by
  rw [Pass.commands, drawFrame_pass, Pass.commands]

/-- A frame that is carried out leaves the device ready. -/
theorem carried_drawFrame (h : r.Ready d limit) {call : FrameCall K}
    (hcarries : d.Carries (call.pass.commands r) d') (htargets : d'.targets.isSome = true)
    (hsame : ∃ targets frame, d' = { d with targets, frame }) :
    (Request.drawFrame call).Carried r d d' limit := by
  obtain ⟨targets, frame, rfl⟩ := hsame
  refine ⟨by rwa [drawFrame_commands], ?_, ?_⟩
  · intro last hlast
    obtain ⟨stats, houtcome⟩ := leaves_of_outcome hlast
    have hbetween := (settles_pass call h.rested.one_le_capacity h.rested.between).ok houtcome
    have hlimits : last.limits = r.limits := by
      rw [hbetween.same]
    refine ⟨rested_of_outcome h.rested hlast, h.hasAtlas, ?_, fun _ => htargets, h.maxTextureSize⟩
    rw [hlimits]
    exact h.capacities
  · intro e he
    exact ⟨h.rested, h.hasAtlas, h.capacities, fun _ => htargets, h.maxTextureSize⟩

/-- A frame is carried out, or one of its textures is too large and nothing has happened. -/
theorem drawFrame_cases (h : r.Ready d limit) (call : FrameCall K) :
    (∃ d', (Request.drawFrame call).Carried r d d' limit) ∨
    ∃ name size, (name, size) ∈ (call.sizes r).checked ∧ size.Exceeds limit ∧
      (Request.drawFrame call).pass.run r d =
        (.error (.error (.backend (Refusal.targetTooLarge name size limit).message)),
          { r with frame := { r.frame with stats := FrameStats.zero } }, d) := by
  cases hactive : call.isActive r with
  | false =>
      have hpass := pass_of_inactive h.rested.toInStep hactive
      refine Or.inl ⟨d, ?_, ?_, fun _ _ => h⟩
      · rw [drawFrame_commands, Pass.commands, hpass]
        rfl
      · intro last hlast
        rw [drawFrame_pass, hpass] at hlast
        cases hlast
        exact h.withStats FrameStats.zero
  | true =>
      rcases resize_cases h call with
        ⟨d₁, hresize, he, targets, rfl⟩ | ⟨name, size, hname, hsize, hresize, hrefused⟩
      · obtain ⟨rest, frame, hcommands, hrest⟩ :=
          exists_carries_rest h.rested hactive he h.capacities
        have hcarries := hresize.append hrest
        rw [← hcommands] at hcarries
        exact Or.inl ⟨_, carried_drawFrame h hcarries he.targets ⟨targets, frame, rfl⟩⟩
      · obtain ⟨later, hsteps, -⟩ := steps_of_active h.rested.toInStep hactive
        have hdevice : Device.perform d (.resizeTargets (call.sizes r) : Command K) =
            (.error (Refusal.targetTooLarge name size limit).message, d) := by
          simp only [Device.perform, hrefused]
          rfl
        refine Or.inr ⟨name, size, hname, hsize, Pass.run_of_refused ?_⟩
        rw [drawFrame_pass, hsteps, hresize]
        simp only [List.map_cons, List.map_nil, List.cons_append, Pass.performAll, hdevice]

/-- Whatever is asked for, the device is then ready for what comes next; it refuses nothing but
textures that are too large. -/
theorem ready_run (request : Request K) (h : r.Ready d limit) :
    (∀ message, (request.pass.run r d).1 = .error (.error (.backend message)) →
      ∃ call, request = .drawFrame call ∧ ∃ name size, (name, size) ∈ (call.sizes r).checked ∧
        size.Exceeds limit ∧ message = (Refusal.targetTooLarge name size limit).message) ∧
      (request.pass.run r d).2.1.Ready (request.pass.run r d).2.2 limit := by
  have hcases : (∃ d', request.Carried r d d' limit) ∨ ∃ call, request = .drawFrame call ∧
      ∃ name size, (name, size) ∈ (call.sizes r).checked ∧ size.Exceeds limit ∧
        request.pass.run r d =
          (.error (.error (.backend (Refusal.targetTooLarge name size limit).message)),
            { r with frame := { r.frame with stats := FrameStats.zero } }, d) := by
    cases request with
    | loadMasks device prototypes load =>
        exact Or.inl (carried_loadMasks h device prototypes load)
    | applyConfig config =>
        exact Or.inl (carried_applyConfig h config)
    | drawFrame call =>
        rcases drawFrame_cases h call with hcarried | hrefused
        · exact Or.inl hcarried
        · exact Or.inr ⟨call, rfl, hrefused⟩
  rcases hcases with ⟨d', hcarried⟩ | ⟨call, hcall, name, size, hname, hsize, hrun⟩
  · refine ⟨?_, hcarried.ready⟩
    intro message hanswer
    exact absurd hanswer (hcarried.ne_backend h.rested.toInStep message)
  · rw [hrun]
    refine ⟨?_, h.withStats FrameStats.zero⟩
    intro message hanswer
    cases hanswer
    exact ⟨call, hcall, name, size, hname, hsize, rfl⟩

end Ready

section Session

/-- A device that is set up is ready for the new renderer, unless there is no room for its lights. -/
theorem create_cases (config : Config K) (device : GraphicsDevice) :
    ∃ d, (Renderer.new config).Ready d device.maxTextureSize ∧
      ((Renderer.create config).run () device = (.ok (Renderer.new config), (), d) ∨
        ∃ fault, (Renderer.create config).run () device = (.error (.fault fault), (), d)) := by
  let d : GraphicsDevice := { device with
    capacities := BufferCapacities.ofLimits (Limits.ofConfig config), hasAtlas := true }
  have hcarries : device.Carries ((Renderer.create config).commands ()) d := by
    rw [Pass.commands, create_eq]
    exact ⟨_, rfl, _, rfl, rfl⟩
  have hready : (Renderer.new config).Ready d device.maxTextureSize := by
    refine ⟨rested_new config, rfl, rfl, ?_, rfl⟩
    intro hnone
    cases hnone
  refine ⟨d, hready, ?_⟩
  rw [run_of_carries hcarries, Pass.ending, create_eq]
  cases Renderer.reserveLights (Limits.ofConfig config) with
  | error fault =>
      exact Or.inr ⟨fault, rfl⟩
  | ok _ =>
      exact Or.inl rfl

/-- Nothing is reported of a device but textures that are too large. -/
def OnlyTooLarge (limit : Nat) (answer : Except Failure Unit) : Prop :=
  ∀ message, answer = .error (.error (.backend message)) →
    ∃ name size, name ∈ TargetSizes.checkedNames ∧ size.Exceeds limit ∧
      message = (Refusal.targetTooLarge name size limit).message

theorem onlyTooLarge_run (request : Request K) {r : Renderer K} {d : GraphicsDevice} {limit : Nat}
    (h : r.Ready d limit) : OnlyTooLarge limit (request.pass.run r d).1 := by
  intro message hmessage
  obtain ⟨call, -, name, size, hname, hrest⟩ := (ready_run request h).1 message hmessage
  exact ⟨name, size, TargetSizes.mem_checkedNames hname, hrest⟩

/-- Whatever a session asks for, the device is ready in the end for what comes next. -/
theorem ready_session (config : Config K) (requests : List (Request K)) (device : GraphicsDevice) :
    (∀ answer ∈ (session config requests device).1, OnlyTooLarge device.maxTextureSize answer) ∧
      ∀ r, (session config requests device).2.1 = some r →
        r.Ready (session config requests device).2.2 device.maxTextureSize := by
  obtain ⟨d, hready, hcreate | ⟨fault, hcreate⟩⟩ := create_cases config device
  · obtain ⟨hserved, hlast⟩ := serveAll_induction (P := OnlyTooLarge device.maxTextureSize)
      (I := fun (r : Renderer K) (d : GraphicsDevice) => r.Ready d device.maxTextureSize)
      (fun request r d h => ⟨onlyTooLarge_run request h, (ready_run request h).2⟩) requests hready
    rw [session, hcreate]
    refine ⟨?_, ?_⟩
    · intro answer hanswer
      rcases List.mem_cons.mp hanswer with rfl | hanswer
      · intro message hmessage
        cases hmessage
      · exact hserved answer hanswer
    · intro r hr
      cases hr
      exact hlast
  · rw [session, hcreate]
    refine ⟨?_, ?_⟩
    · intro answer hanswer
      rw [List.mem_singleton.mp hanswer]
      intro message hmessage
      cases hmessage
    · intro r hr
      cases hr

/-- All that a device ever refuses, whatever it is asked for and whatever it has refused before, are
textures that are too large. -/
theorem session_refusals (config : Config K) (requests : List (Request K)) (device : GraphicsDevice) :
    ∀ answer ∈ (session config requests device).1, ∀ message,
      answer = .error (.error (.backend message)) →
      (∃ name size, name ∈ TargetSizes.checkedNames ∧
        size.Exceeds device.maxTextureSize ∧
        message = (Refusal.targetTooLarge name size device.maxTextureSize).message) ∧
      ∀ refusal : Refusal, refusal.message = message →
        ∃ name size limit, refusal = .targetTooLarge name size limit := by
  intro answer hanswer message hmessage
  obtain ⟨name, size, hname, hsize, rfl⟩ :=
    (ready_session config requests device).1 answer hanswer message hmessage
  refine ⟨⟨name, size, hname, hsize, rfl⟩, ?_⟩
  intro refusal hsame
  exact eq_targetTooLarge_of_message hname hsame

/-- A device whose textures are small. -/
def smallDevice : GraphicsDevice := GraphicsDevice.new 512 true

/-- A view for that device. -/
def smallView : FrameCall Float32 := { twoLightsView with device := smallDevice.capabilities }

/-- A session that asks for a view that is too wide before one that fits. -/
def wideFirst : List (Except Failure Unit) × Option (Renderer Float32) × GraphicsDevice :=
  session Config.standard
    [.drawFrame { smallView with viewport := ⟨⟨513, 64⟩, Vec2.one⟩ }, .drawFrame smallView]
    smallDevice

theorem session_refusals_wideFirst :
    let message := "framebuffer of 513x64 exceeds the maximum texture size of 512"
    wideFirst.1 = [.ok (), .error (.error (.backend message)), .ok ()] ∧
      ∀ refusal : Refusal, refusal.message = message →
        ∃ name size limit, refusal = .targetTooLarge name size limit := by
  intro message
  have hrun : wideFirst.1 = [.ok (), .error (.error (.backend message)), .ok ()] := by
    decide +kernel
  refine ⟨hrun, ?_⟩
  have hmem : Except.error (Failure.error (.backend message)) ∈ wideFirst.1 := by
    simp [hrun]
  exact (session_refusals Config.standard _ _ _ hmem message rfl).2

end Session

end Penumbra
