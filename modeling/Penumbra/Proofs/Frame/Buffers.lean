import Penumbra.Proofs.Frame.Protocol

/-!
# Buffers and limits

A device has buffers for as many walls and lights as the settings allow.  A change of settings takes
over the limits first and asks for the buffers afterwards.  So the buffers that were asked for last
are always those of the limits, but when they are refused the device still has the buffers from
before.  Asking for the same settings again does not help, because they do not differ any more.

**Results**

* `Command.buffers?`: the buffers that a device is asked for.
* `Renderer.Buffered`, `buffered_run`: the buffers of the limits were asked for last.
* `Command.Within`, `within_frame`: frames keep to the limits.
* `applyConfig_refused`: what a change of settings leaves that is refused.
* `session_buffers`: buffers and limits after any session.
-/

namespace Penumbra

variable {K : Type}

def Command.buffers? : Command K → Option BufferCapacities
  | .resizeBuffers capacities => some capacities
  | _ => none

section Limits

variable [Scalar K]

/-- A command of a frame that keeps to the sizes of buffers. -/
def Command.Within (capacities : BufferCapacities) : Command K → Prop
  | .resizeBuffers _ => False
  | .uploadMaskAtlas _ => False
  | .uploadOcclusion geometry instances _ =>
    geometry.occluderCount ≤ capacities.maxOccluders ∧
      instances.length ≤ capacities.maxShadowLights
  | _ => True

omit [Scalar K] in
theorem Command.Within.buffers?_eq_none {capacities : BufferCapacities} {c : Command K}
    (h : c.Within capacities) : c.buffers? = none := by
  cases c with
  | resizeBuffers _ => exact h.elim
  | _ => rfl

variable {call : FrameCall K} {r : Renderer K}

omit [Scalar K] in
theorem forall_mem_ite {α : Type} {P : α → Prop} {p : Prop} [Decidable p] {xs : List α} :
    (∀ x ∈ (if p then xs else []), P x) ↔ (p → ∀ x ∈ xs, P x) := by
  by_cases hp : p <;> simp [hp]

theorem within_protocol {capacities : BufferCapacities} {geometry : OcclusionGeometry K}
    {instances : List (DepthInstance K)} (hwalls : geometry.occluderCount ≤ capacities.maxOccluders)
    (hinstances : instances.length ≤ capacities.maxShadowLights)
    (batches : List (List (LightVertex K) × List UInt16)) (casters : List (ShadowCasterDraw K)) :
    ∀ c ∈ call.protocol r geometry instances batches casters, c.Within capacities := by
  have hlight : ∀ c ∈ call.lightProtocol r geometry.occluderCount batches casters,
      c.Within capacities := by
    simp only [FrameCall.lightProtocol, List.forall_mem_append, List.forall_mem_cons,
      List.forall_mem_map, forall_mem_ite]
    simp [Command.Within]
  have hlit : r.config.drawLighting = true →
      ∀ c ∈ call.lightProtocol r geometry.occluderCount batches casters, c.Within capacities :=
    fun _ => hlight
  simp only [FrameCall.protocol, bothSides, List.forall_mem_append, List.forall_mem_cons,
    forall_mem_ite, eq_true hlit]
  simp [Command.Within, hwalls, hinstances]

/-- A frame keeps to the limits, whatever it finds. -/
theorem within_frame (hr : r.InStep) (call : FrameCall K) :
    ∀ c ∈ call.pass.commands r, c.Within (BufferCapacities.ofLimits r.limits) := by
  have hresize : ∀ c ∈ call.resizeCommands r r.frame.targetSizes,
      c.Within (BufferCapacities.ofLimits r.limits) := by
    unfold FrameCall.resizeCommands
    split <;> simp [Command.Within]
  rcases pass_commands hr call with hnone | hbegun | ⟨selection, geometry, -, hscene, hall⟩
  · rw [hnone]
    exact fun c hc => (List.not_mem_nil hc).elim
  · rw [hbegun, List.forall_mem_append]
    exact ⟨hresize, by simp [Command.Within]⟩
  · have hfound := found_of_scene hscene
    have hwalls : geometry.occluderCount ≤ r.limits.maxOccluders :=
      hr.maxOccluders ▸ hfound.occluderCount_le
    have hinstances : selection.instances.length ≤ r.limits.maxShadowLights :=
      hfound.instances_length ▸ hfound.shadowCount_le
    rw [hall, List.forall_mem_append]
    exact ⟨hresize, within_protocol hwalls hinstances _ _⟩

/-- Loading masks changes the masks at most. -/
theorem loadMasks_run_eq {D : Type} [Device D K] (device : Capabilities)
    (prototypes : List MaskPrototype) (load : String → Option Image) (r : Renderer K) (d : D) :
    ∃ masks, ((Renderer.loadMasks device prototypes load).run r d).2.1 = { r with masks } := by
  refine Pass.run_induction (I := fun last : Renderer K => ∃ masks, last = { r with masks })
    ⟨r.masks, rfl⟩ ?_ ?_ d
  · intro x hx
    have hleft : (Request.loadMasks device prototypes load).LeavesRefused r x.2 :=
      leavesRefused_of_mem hx
    exact ⟨r.masks, hleft⟩
  · intro _ last hok
    have hlast : (Request.loadMasks device prototypes load).Leaves r last := leaves_of_outcome hok
    exact hlast

/-- Loading masks asks for nothing but an upload of masks. -/
theorem uploads_of_loadMasks (device : Capabilities) (prototypes : List MaskPrototype)
    (load : String → Option Image) (r : Renderer K) :
    ∀ c ∈ (Renderer.loadMasks device prototypes load).commands r,
      ∃ image, c = .uploadMaskAtlas image := by
  have hscript := loadMasks_eq device prototypes load r
  rw [Pass.commands]
  split at hscript
  · simp [hscript]
  · simp [hscript]

theorem limits_frame {D : Type} [Device D K] (call : FrameCall K) (r : Renderer K) (d : D) :
    (call.pass.run r d).2.1.limits = r.limits := by
  refine Pass.run_induction (I := fun last : Renderer K => last.limits = r.limits) rfl ?_ ?_ d
  · intro x hx
    rw [pass_eq] at hx
    obtain ⟨y, -, rfl⟩ := List.mem_map.mp hx
    rfl
  · intro stats last hok
    rw [pass_eq] at hok
    simp only at hok
    cases houtcome : (r.framePass call.device call.index call.eye call.viewport call.lighting
        r.frame).outcome with
    | error e =>
        rw [houtcome] at hok
        cases hok
    | ok x =>
        rw [houtcome] at hok
        cases hok
        rfl

end Limits

section Changes

variable [Scalar K] {D : Type} [Device D K]

/-- What comes of a change of settings.  There is no room for its lights, or it leaves the sizes of
buffers as they are, or it asks for new ones. -/
inductive ConfigRun (next : Config K) (r : Renderer K) (d : Logged D K) :
    Except Failure Unit × Renderer K × Logged D K → Prop where
  | noRoom (fault : Fault) : ConfigRun next r d (.error (.fault fault), r, d)
  | unasked (hsame : BufferCapacities.ofLimits (Limits.ofConfig next) =
      BufferCapacities.ofLimits r.limits) : ConfigRun next r d (.ok (), r.afterConfig next, d)
  | made (device : D) : ConfigRun next r d (.ok (), r.afterConfig next,
      ⟨device, d.log ++ [(.resizeBuffers (BufferCapacities.ofLimits (Limits.ofConfig next)), true)]⟩)
  | refused (message : String) (device : D) :
      ConfigRun next r d (.error (.error (.backend message)), r.reconfigured next,
        ⟨device, d.log ++
          [(.resizeBuffers (BufferCapacities.ofLimits (Limits.ofConfig next)), false)]⟩)

theorem configRun_applyConfig {r : Renderer K} (hr : r.InStep) (next : Config K) (d : Logged D K) :
    ConfigRun next r d ((Renderer.applyConfig next).run r d) := by
  have hscript := applyConfig_eq next r
  split at hscript
  · next fault _ =>
      have hrun : (Renderer.applyConfig next).run r d = (.error (.fault fault), r, d) := by
        rw [Pass.run, hscript]
        rfl
      rw [hrun]
      exact .noRoom fault
  · split at hscript
    · rcases hdevice : Device.perform d.device
        (.resizeBuffers (BufferCapacities.ofLimits (r.reconfigured next).limits) : Command K) with
        ⟨message | ⟨⟩, device⟩
      · have hall : Pass.performAll (Renderer.applyConfig next r).steps d =
            (some (message, r.reconfigured next), ⟨device, d.log ++ [(.resizeBuffers
              (BufferCapacities.ofLimits (r.reconfigured next).limits), false)]⟩) := by
          simp only [hscript, Pass.performAll, Logged.perform_of_error hdevice]
        rw [Pass.run_of_refused hall]
        exact .refused message device
      · have hall : Pass.performAll (Renderer.applyConfig next r).steps d =
            (none, ⟨device, d.log ++ [(.resizeBuffers
              (BufferCapacities.ofLimits (r.reconfigured next).limits), true)]⟩) := by
          simp only [hscript, Pass.performAll, Logged.perform_of_ok hdevice]
        rw [Pass.run_of_ok hall (congrArg Script.outcome hscript)]
        exact .made device
    · next hsame =>
        obtain ⟨hlight, hwalls⟩ := Bool.or_eq_false_iff.mp (Bool.eq_false_iff.mpr hsame)
        have hall : Pass.performAll (Renderer.applyConfig next r).steps d = (none, d) := by
          rw [hscript]
          rfl
        rw [Pass.run_of_ok hall (congrArg Script.outcome hscript)]
        exact .unasked (ofLimits_eq hr hlight hwalls)

omit [Scalar K] in
theorem askedFor_resizeBuffers (log : List (Command K × Bool)) (capacities : BufferCapacities)
    (granted : Bool) :
    askedFor Command.buffers? (log ++ [(.resizeBuffers capacities, granted)]) =
      askedFor Command.buffers? log ++ [(capacities, granted)] :=
  askedFor_append Command.buffers? _ _

variable {r r' : Renderer K}

/-- The buffers that a device was asked for last are those of the limits, and it has made some. -/
structure Renderer.Buffered (r : Renderer K) (log : List (Command K × Bool)) : Prop where
  inStep : r.InStep
  asked : ∃ granted,
    (askedFor Command.buffers? log).getLast? = some (BufferCapacities.ofLimits r.limits, granted)
  made : ∃ capacities, lastGranted Command.buffers? log = some capacities

theorem Renderer.Buffered.of_same {log log' : List (Command K × Bool)} (h : r.Buffered log)
    (hr' : r'.InStep) (hlimits : BufferCapacities.ofLimits r'.limits = BufferCapacities.ofLimits r.limits)
    (hlog : askedFor Command.buffers? log' = askedFor Command.buffers? log) : r'.Buffered log' := by
  refine ⟨hr', ?_, ?_⟩
  · rw [hlimits, hlog]
    exact h.asked
  · rw [lastGranted, hlog]
    exact h.made

theorem buffered_applyConfig {d : Logged D K} (h : r.Buffered d.log) (next : Config K) :
    ((Renderer.applyConfig next).run r d).2.1.Buffered
      ((Renderer.applyConfig next).run r d).2.2.log := by
  have hafter := inStep_afterConfig h.inStep next
  have hlimits := limits_afterConfig r next
  generalize hrun : (Renderer.applyConfig next).run r d = run
  have hcases := configRun_applyConfig h.inStep next d
  rw [hrun] at hcases
  cases hcases with
  | noRoom fault =>
      exact h
  | unasked hsame =>
      exact h.of_same hafter (by rw [hlimits, hsame]) rfl
  | made device =>
      have hlast : (askedFor Command.buffers? (d.log ++ [(.resizeBuffers (BufferCapacities.ofLimits
          (Limits.ofConfig next)), true)])).getLast? =
          some (BufferCapacities.ofLimits (Limits.ofConfig next), true) := by
        rw [askedFor_resizeBuffers, List.getLast?_concat]
      exact ⟨hafter, ⟨true, by rw [hlimits]; exact hlast⟩, ⟨_, lastGranted_of_getLast? hlast⟩⟩
  | refused message device =>
      refine ⟨inStep_reconfigured h.inStep next, ⟨false, ?_⟩, ?_⟩
      · rw [askedFor_resizeBuffers, List.getLast?_concat]
        rfl
      · rw [lastGranted_refused]
        exact h.made

/-- Whatever is refused, the buffers that were asked for last are those of the limits. -/
theorem buffered_run (request : Request K) {d : Logged D K} (h : r.Buffered d.log) :
    (request.pass.run r d).2.1.Buffered (request.pass.run r d).2.2.log := by
  have hstep := inStep_run request h.inStep d
  cases request with
  | applyConfig next =>
      exact buffered_applyConfig h next
  | loadMasks device prototypes load =>
      obtain ⟨masks, hmasks⟩ := loadMasks_run_eq device prototypes load r d
      have hlimits := congrArg (fun last : Renderer K => BufferCapacities.ofLimits last.limits) hmasks
      have hnone : ∀ c ∈ (Renderer.loadMasks device prototypes load).commands r,
          c.buffers? = none := by
        intro c hc
        obtain ⟨image, rfl⟩ := uploads_of_loadMasks device prototypes load r c hc
        rfl
      exact h.of_same hstep hlimits (Pass.askedFor_run hnone d)
  | drawFrame call =>
      rw [drawFrame_run] at hstep ⊢
      have hframe := within_frame h.inStep call
      exact h.of_same hstep (by rw [limits_frame call r d])
        (Pass.askedFor_run (fun c hc => (hframe c hc).buffers?_eq_none) d)

end Changes

section Session

variable [Scalar K] {D D' : Type} [Device D K] [Device D' K] {config : Config K}
  {requests : List (Request K)} {r : Renderer K} {device : D} {d : Logged D K}
  {answers : List (Except Failure Unit)}

/-- The buffers of a new renderer were made. -/
theorem buffered_new (h : ((Renderer.create config).run () (Logged.new device : Logged D K)).1 =
    .ok (Renderer.new config)) :
    (Renderer.new config).Buffered
      ((Renderer.create config).run () (Logged.new device : Logged D K)).2.2.log := by
  obtain ⟨-, hlog⟩ := Pass.outcome_of_run_ok h
  have hasked : askedFor Command.buffers?
      ((Renderer.create config).run () (Logged.new device : Logged D K)).2.2.log =
        [(BufferCapacities.ofLimits (Limits.ofConfig config), true)] := by
    rw [hlog, create_eq]
    rfl
  have hlast := congrArg List.getLast? hasked
  rw [List.getLast?_singleton] at hlast
  exact ⟨(rested_new config).toInStep, ⟨true, hlast⟩, ⟨_, lastGranted_of_getLast? hlast⟩⟩

theorem buffered_session
    (h : session config requests (Logged.new device) = (answers, some r, d)) :
    r.Buffered d.log := by
  obtain ⟨d₀, hd₀, -, hserved⟩ := session_eq_some h
  have hnew := buffered_new (session_created h)
  rw [hd₀] at hnew
  have hkept := (serveAll_induction (I := fun (r : Renderer K) (d : Logged D K) => r.Buffered d.log)
    (P := fun _ => True) (fun request r d hr => ⟨trivial, buffered_run request hr⟩) requests hnew).2
  rwa [hserved] at hkept

/-- Settings that are there already succeed without a word to the device. -/
theorem applyConfig_again {D : Type} [Device D K] {left : Renderer K} {next : Config K}
    (h : left.config = next) (d : D) :
    (Renderer.applyConfig next).run left d = (.ok (), left.afterConfig next, d) := by
  obtain ⟨hlight, hwalls⟩ := changesFrom_self next
  have hscript := applyConfig_eq next left
  rw [h] at hscript
  simp only [hlight, hwalls, Bool.or_self, Bool.false_eq_true, if_false] at hscript
  have hall : Pass.performAll (Renderer.applyConfig next left).steps d = (none, d) := by
    rw [hscript]
    rfl
  exact Pass.run_of_ok hall (congrArg Script.outcome hscript)

/-- A change of settings whose buffers are refused leaves the new settings and their limits, and the
buffers from before.  Asking for the same settings again succeeds without a word to the device. -/
theorem applyConfig_refused (hr : r.InStep) {next : Config K} {message : String}
    (h : ((Renderer.applyConfig next).run r d).1 = .error (.error (.backend message))) :
    ∃ left failed, (Renderer.applyConfig next).run r d =
        (.error (.error (.backend message)), left, failed) ∧
      left.config = next ∧ left.limits = Limits.ofConfig next ∧
      lastGranted Command.buffers? failed.log = lastGranted Command.buffers? d.log ∧
      (Renderer.applyConfig next).run left failed = (.ok (), left.afterConfig next, failed) := by
  generalize hrun : (Renderer.applyConfig next).run r d = run at h
  have hcases := configRun_applyConfig hr next d
  rw [hrun] at hcases
  cases hcases with
  | noRoom fault =>
      cases h
  | unasked _ =>
      cases h
  | made device =>
      cases h
  | refused message' device =>
      cases h
      have hconfig : (r.reconfigured next).config = next := rfl
      exact ⟨r.reconfigured next, _, rfl, hconfig, rfl, lastGranted_refused _ _,
        applyConfig_again hconfig _⟩

/-- The buffers of a device after any session, whatever it refused.  The buffers that were asked for
last are those of the limits, and the device has them unless it refused them; then it has those that
it made before.  Another change of settings that is refused leaves new settings and limits with the
buffers that are there, also when it is asked for again.  Each frame keeps to the limits, but not to
buffers that were refused. -/
theorem session_buffers
    (h : session config requests (Logged.new device) = (answers, some r, d)) (other : D') :
    let capacities := BufferCapacities.ofLimits r.limits
    (∃ granted, (askedFor Command.buffers? d.log).getLast? = some (capacities, granted) ∧
      (granted = true → lastGranted Command.buffers? d.log = some capacities)) ∧
    (∃ made, lastGranted Command.buffers? d.log = some made) ∧
    (∀ next message,
      ((Renderer.applyConfig next).run r d).1 = .error (.error (.backend message)) →
      ∃ left failed, (Renderer.applyConfig next).run r d =
          (.error (.error (.backend message)), left, failed) ∧
        left.config = next ∧ left.limits = Limits.ofConfig next ∧
        lastGranted Command.buffers? failed.log = lastGranted Command.buffers? d.log ∧
        (Renderer.applyConfig next).run left failed = (.ok (), left.afterConfig next, failed)) ∧
    ∀ call : FrameCall K,
      ∀ asked ∈ (call.pass.run r (Logged.new other : Logged D' K)).2.2.log,
        asked.1.Within capacities := by
  intro capacities
  have hbuffered := buffered_session h
  obtain ⟨granted, hgranted⟩ := hbuffered.asked
  refine ⟨⟨granted, hgranted, ?_⟩, hbuffered.made, ?_, ?_⟩
  · rintro rfl
    exact lastGranted_of_getLast? hgranted
  · exact fun next message => applyConfig_refused hbuffered.inStep
  · intro call
    obtain ⟨more, hlog, hmore⟩ := call.pass.run_asked r (Logged.new other : Logged D' K)
    rw [hlog]
    exact fun asked hasked => within_frame hbuffered.inStep call _ (hmore asked hasked)

/-- Settings with more room for walls. -/
def crowded : Config Float32 := { Config.standard with maxOccluderCount := 4096 }

/-- A session on a device that refuses the first command after the set-up. -/
def setUpOnly :
    List (Except Failure Unit) × Option (Renderer Float32) × Logged (Recorder Float32) Float32 :=
  session Config.standard [] (Logged.new ((Recorder.new Recorder.generous).refusingAfter 2))

def setUpRenderer : Renderer Float32 := setUpOnly.2.1.getD (Renderer.new Config.standard)

/-- Room for more walls is refused, and the second time it is not asked for. -/
theorem session_buffers_crowded :
    setUpOnly = (setUpOnly.1, some setUpRenderer, setUpOnly.2.2) ∧
      ∃ left failed, (Renderer.applyConfig crowded).run setUpRenderer setUpOnly.2.2 =
          (.error (.error (.backend Recorder.refusal)), left, failed) ∧
        BufferCapacities.ofLimits left.limits = ⟨4096, 2048, 128⟩ ∧
        lastGranted Command.buffers? failed.log = some ⟨2048, 2048, 128⟩ ∧
        (Renderer.applyConfig crowded).run left failed = (.ok (), left.afterConfig crowded, failed) := by
  have hvalues : setUpOnly.2.1.isSome = true ∧
      lastGranted Command.buffers? setUpOnly.2.2.log = some ⟨2048, 2048, 128⟩ ∧
      ((Renderer.applyConfig crowded).run setUpRenderer setUpOnly.2.2).1 =
        .error (.error (.backend Recorder.refusal)) ∧
      BufferCapacities.ofLimits (Limits.ofConfig crowded) = ⟨4096, 2048, 128⟩ := by
    decide +kernel
  obtain ⟨hsome, hmade, hrefused, hcrowded⟩ := hvalues
  have hsession : setUpOnly = (setUpOnly.1, some setUpRenderer, setUpOnly.2.2) :=
    eq_of_isSome hsome _
  obtain ⟨-, -, hchange, -⟩ := session_buffers hsession setUpOnly.2.2.device
  obtain ⟨left, failed, hrun, -, hlimits, hkept, hagain⟩ := hchange crowded _ hrefused
  exact ⟨hsession, left, failed, hrun, by rw [hlimits, hcrowded], by rw [hkept, hmade], hagain⟩

end Session

end Penumbra
