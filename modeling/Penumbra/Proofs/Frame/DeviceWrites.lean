import Penumbra.Frame.DeviceMemory
import Penumbra.Proofs.Frame.DeviceRules

/-!
# What commands write

The rules of a device are followed together with what is written.  A command is refused before it
writes anything, or it writes, moves on in the frame by just as much, and is refused after that only
if textures or masks are missing.

**Results**

* `GraphicsDevice.Ends`, `GraphicsDevice.Follows`: parts of a command, and the rules that they follow.
* `GraphicsDevice.writing_follows`: what is written changes nothing of the rules of the device.
* `GraphicsDevice.pushPass_cases`, `GraphicsDevice.pushLights_cases`: refused at once, or written.
* `GraphicsDevice.Effect`, `GraphicsDevice.writing_effect`: all that a command may do.
-/

namespace Penumbra

namespace GraphicsDevice

section Parts

variable {α β : Type}

/-- A part of a command ends with an answer and with what was written until then. -/
def Ends (x : Writing α) (s : WrittenDevice) (answer : Except Refusal α) (s' : WrittenDevice) :
    Prop :=
  x.run.run s = (answer, s')

variable {x : Writing α} {s s' s'' : WrittenDevice} {d d' : GraphicsDevice} {a : α}
  {refusal : Refusal}

theorem Ends.bind {next : α → Writing β} {answer : Except Refusal β} (hx : Ends x s (.ok a) s')
    (hnext : Ends (next a) s' answer s'') : Ends (x >>= next) s answer s'' := by
  unfold Ends at hx hnext ⊢
  rw [ExceptT.run_bind, StateT.run_bind, hx]
  exact hnext

theorem Ends.bind_refused (hx : Ends x s (.error refusal) s') (next : α → Writing β) :
    Ends (x >>= next) s (.error refusal) s' := by
  unfold Ends at hx ⊢
  rw [ExceptT.run_bind, StateT.run_bind, hx]
  rfl

theorem ends_write (ws : List BufferWrite) (s : WrittenDevice) :
    Ends (write ws) s (.ok ()) { s with writes := s.writes ++ ws } := rfl

theorem ends_ofRules (x : Rules α) (s : WrittenDevice) :
    Ends (.ofRules x) s (x.run.run s.device).1 { s with device := (x.run.run s.device).2 } := rfl

theorem Yields.ends {x : Rules α} (h : Yields x d a d') (ws : List BufferWrite) :
    Ends (.ofRules x) ⟨d, ws⟩ (.ok a) ⟨d', ws⟩ := by
  unfold Yields at h
  have hends := ends_ofRules x ⟨d, ws⟩
  rwa [h] at hends

theorem Refuses.ends {x : Rules α} (h : Refuses x d refusal d') (ws : List BufferWrite) :
    Ends (.ofRules x) ⟨d, ws⟩ (.error refusal) ⟨d', ws⟩ := by
  unfold Refuses at h
  have hends := ends_ofRules x ⟨d, ws⟩
  rwa [h] at hends

/-- A part of a command follows its rules, whatever it writes. -/
def Follows (x : Writing α) (rules : Rules α) : Prop :=
  ∀ s : WrittenDevice, ∃ ws, Ends x s (rules.run.run s.device).1
    ⟨(rules.run.run s.device).2, s.writes ++ ws⟩

theorem follows_ofRules (x : Rules α) : Follows (.ofRules x) x := by
  intro s
  refine ⟨[], ?_⟩
  rw [List.append_nil]
  exact ends_ofRules x s

theorem Follows.bind {rules : Rules α} {next : α → Writing β} {nextRules : α → Rules β}
    (h : Follows x rules) (hnext : ∀ a, Follows (next a) (nextRules a)) :
    Follows (x >>= next) (rules >>= nextRules) := by
  intro s
  obtain ⟨ws, hx⟩ := h s
  rw [ExceptT.run_bind, StateT.run_bind]
  rcases hrun : rules.run.run s.device with ⟨refusal | a, d⟩
  · rw [hrun] at hx
    exact ⟨ws, hx.bind_refused next⟩
  · rw [hrun] at hx
    obtain ⟨more, hnext⟩ := hnext a ⟨d, s.writes ++ ws⟩
    refine ⟨ws ++ more, ?_⟩
    rw [← List.append_assoc]
    exact hx.bind hnext

theorem Follows.write {x : Writing Unit} {rules : Rules Unit} (h : Follows x rules)
    (ws : List BufferWrite) : Follows (x >>= fun _ => write ws) rules := by
  intro s
  obtain ⟨before, hx⟩ := h s
  rcases hrun : rules.run.run s.device with ⟨refusal | ⟨⟩, d⟩
  · rw [hrun] at hx
    exact ⟨before, hx.bind_refused _⟩
  · rw [hrun] at hx
    refine ⟨before ++ ws, ?_⟩
    rw [← List.append_assoc]
    exact hx.bind (ends_write ws _)

theorem inFrame_eq {frame : DeviceFrame} (h : d.frame = some frame) : d.inFrame frame = d := by
  rw [inFrame, ← h]

theorem yields_needFrame_of_eq {frame : DeviceFrame} (h : d.frame = some frame) :
    Yields needFrame d frame d := by
  have hframe := yields_needFrame d frame
  rwa [inFrame_eq h] at hframe

theorem refuses_needFrame (h : d.frame = none) : Refuses needFrame d .noFrame d := by
  refine (yields_get d).bind_refuses ?_
  rw [h]
  rfl

/-- The frame is the same when it is looked up again. -/
theorem needFrame_bind_needFrame (next : DeviceFrame → Rules α) :
    (needFrame >>= fun _ => needFrame >>= next) = needFrame >>= next := by
  refine ExceptT.ext (StateT.ext fun d => ?_)
  cases hframe : d.frame with
  | none =>
      have hnone := refuses_needFrame hframe
      exact (hnone.bind _).trans (hnone.bind next).symm
  | some frame =>
      have hyields := yields_needFrame_of_eq hframe
      unfold Yields at hyields
      rw [ExceptT.run_bind, StateT.run_bind, hyields]
      rfl

end Parts

section Following

variable {K : Type} (alignment : Nat)

theorem follows_pushUniforms : Follows (pushUniforms alignment) takeUniforms := by
  have h := (follows_ofRules needFrame).bind fun frame =>
    (follows_ofRules takeUniforms).write
      [passWrite alignment frame]
  rwa [takeUniforms, needFrame_bind_needFrame] at h

theorem follows_pushLightGeometry (vertices indices : Nat) :
    Follows (pushLightGeometry alignment vertices indices) (takeLightGeometry vertices indices) := by
  have h := (follows_ofRules needFrame).bind fun frame =>
    (follows_ofRules (takeLightGeometry vertices indices)).write
      (lightWrites alignment frame vertices indices)
  rwa [takeLightGeometry, needFrame_bind_needFrame] at h

theorem follows_pushPass : Follows (pushPass alignment) drawPass :=
  (follows_pushUniforms alignment).bind fun _ => follows_ofRules _

theorem follows_pushLights (vertices indices : Nat) :
    Follows (pushLights alignment vertices indices) (do
      needLightPass
      takeLightGeometry vertices indices
      needAtlas
      let _ ← needFrame
      let _ ← needTargets) :=
  (follows_ofRules needLightPass).bind fun _ =>
    (follows_pushLightGeometry alignment vertices indices).bind fun _ => follows_ofRules _

/-- A command follows the rules of the device, whatever it writes. -/
theorem writing_follows (c : Command K) : Follows (writing alignment c) (rules c) := by
  have hplain := follows_ofRules (rules c)
  cases c with
  | uploadOcclusion geometry lightInstances fovInstances =>
      exact (follows_ofRules _).write _
  | drawOcclusionDepth draw =>
      exact (follows_ofRules needTargets).bind fun _ => follows_pushPass alignment
  | beginLightPass pass =>
      exact (follows_pushPass alignment).bind fun _ => follows_ofRules _
  | drawLightingFov | drawOccluderMask | blur | mergeWallBleed | applyFov =>
      exact follows_pushPass alignment
  | drawLightBatch vertices indices =>
      change Follows (if _ then _ else _) (drawLightBatch vertices.length indices.length)
      unfold drawLightBatch
      split
      · exact follows_ofRules (Pure.pure ())
      · exact follows_pushLights alignment _ _
  | drawShadowCaster draw =>
      exact follows_pushLights alignment 4 0
  | resizeTargets | resizeBuffers | uploadMaskAtlas | beginFrame | setDepthState
  | clearDepthTarget | endLightPass | endFrame =>
      exact hplain

end Following

section Cases

variable (alignment : Nat) (d : GraphicsDevice) (ws : List BufferWrite)

theorem needTargets_cases :
    (∃ sizes, Yields needTargets d sizes d) ∨ Refuses needTargets d .noTargets d := by
  cases htargets : d.targets with
  | none =>
      refine Or.inr ((yields_get d).bind_refuses ?_)
      rw [htargets]
      rfl
  | some sizes =>
      refine Or.inl ⟨sizes, (yields_get d).bind ?_⟩
      rw [htargets]
      exact Yields.pure sizes d

theorem needAtlas_cases : Yields needAtlas d () d ∨ Refuses needAtlas d .noAtlas d := by
  cases hatlas : d.hasAtlas && d.targets.isSome with
  | true =>
      refine Or.inl ((yields_get d).bind ?_)
      rw [if_pos hatlas]
      exact Yields.pure () d
  | false =>
      refine Or.inr ((yields_get d).bind_refuses ?_)
      rw [if_neg (Bool.eq_false_iff.mp hatlas)]
      rfl

theorem needLightPass_cases :
    Yields needLightPass d () d ∨ Refuses needLightPass d .noLightPass d := by
  cases hframe : d.frame with
  | none =>
      refine Or.inr ((yields_get d).bind_refuses ?_)
      rw [hframe]
      rfl
  | some frame =>
      cases hlit : frame.inLightPass with
      | true =>
          have hyields := yields_needLightPass d hlit
          rw [inFrame_eq hframe] at hyields
          exact Or.inl hyields
      | false =>
          refine Or.inr ((yields_get d).bind_refuses ?_)
          simp only [hframe, hlit]
          rfl

theorem pushUniforms_cases :
    (∃ refusal, Ends (pushUniforms alignment) ⟨d, ws⟩ (.error refusal) ⟨d, ws⟩) ∨
      ∃ frame, d.frame = some frame ∧ frame.uniforms + 1 ≤ uniformSlots ∧
        Ends (pushUniforms alignment) ⟨d, ws⟩ (.ok ())
          ⟨d.inFrame { frame with uniforms := frame.uniforms + 1 },
            ws ++ [passWrite alignment frame]⟩ := by
  cases hframe : d.frame with
  | none =>
      exact Or.inl ⟨_, ((refuses_needFrame hframe).ends ws).bind_refused _⟩
  | some frame =>
      have hneed := yields_needFrame_of_eq hframe
      by_cases hroom : frame.uniforms + 1 ≤ uniformSlots
      · have htake := yields_takeUniforms d hroom
        rw [inFrame_eq hframe] at htake
        exact Or.inr ⟨frame, rfl, hroom,
          (hneed.ends ws).bind ((htake.ends ws).bind (ends_write _ _))⟩
      · have hrefuses : Refuses takeUniforms d .tooManyPasses d := by
          refine hneed.bind_refuses ?_
          rw [if_pos (Nat.lt_of_not_le hroom)]
          rfl
        exact Or.inl ⟨_, (hneed.ends ws).bind ((hrefuses.ends ws).bind_refused _)⟩

/-- Once uniforms are written, only textures can be missing. -/
theorem ends_needTargets (frame : DeviceFrame) :
    ∃ answer, (answer = .ok () ∨ answer = .error .noTargets) ∧
      Ends (.ofRules do
        let _ ← needFrame
        let _ ← needTargets) ⟨d.inFrame frame, ws⟩ answer ⟨d.inFrame frame, ws⟩ := by
  have hneed := yields_needFrame d frame
  rcases needTargets_cases (d.inFrame frame) with ⟨sizes, htargets⟩ | htargets
  · exact ⟨.ok (), Or.inl rfl, (hneed.bind (htargets.bind (Yields.pure () _))).ends ws⟩
  · exact ⟨.error .noTargets, Or.inr rfl, (hneed.bind_refuses (htargets.bind _)).ends ws⟩

/-- Once corners are written, only masks and textures can be missing. -/
theorem ends_needAtlas (frame : DeviceFrame) :
    ∃ answer, (answer = .ok () ∨ answer = .error .noAtlas ∨ answer = .error .noTargets) ∧
      Ends (.ofRules do
        needAtlas
        let _ ← needFrame
        let _ ← needTargets) ⟨d.inFrame frame, ws⟩ answer ⟨d.inFrame frame, ws⟩ := by
  have hneed := yields_needFrame d frame
  rcases needAtlas_cases (d.inFrame frame) with hatlas | hatlas
  · rcases needTargets_cases (d.inFrame frame) with ⟨sizes, htargets⟩ | htargets
    · exact ⟨.ok (), Or.inl rfl,
        (hatlas.bind (hneed.bind (htargets.bind (Yields.pure () _)))).ends ws⟩
    · exact ⟨.error .noTargets, Or.inr (Or.inr rfl),
        (hatlas.bind_refuses (hneed.bind_refuses (htargets.bind _))).ends ws⟩
  · exact ⟨.error .noAtlas, Or.inr (Or.inl rfl), (hatlas.bind _).ends ws⟩

/-- A pass is refused at once, or its uniforms are written. -/
theorem pushPass_cases :
    (∃ refusal, Ends (pushPass alignment) ⟨d, ws⟩ (.error refusal) ⟨d, ws⟩) ∨
      ∃ frame answer, d.frame = some frame ∧ frame.uniforms + 1 ≤ uniformSlots ∧
        (answer = .ok () ∨ answer = .error .noTargets) ∧
        Ends (pushPass alignment) ⟨d, ws⟩ answer
          ⟨d.inFrame { frame with uniforms := frame.uniforms + 1 },
            ws ++ [passWrite alignment frame]⟩ := by
  rcases pushUniforms_cases alignment d ws with ⟨refusal, hpush⟩ | ⟨frame, hframe, hroom, hpush⟩
  · exact Or.inl ⟨refusal, hpush.bind_refused _⟩
  · obtain ⟨answer, hanswer, hrest⟩ := ends_needTargets d (ws ++ [passWrite alignment frame])
      { frame with uniforms := frame.uniforms + 1 }
    exact Or.inr ⟨frame, answer, hframe, hroom, hanswer, hpush.bind hrest⟩

theorem takeLightGeometry_cases {frame : DeviceFrame} (hframe : d.frame = some frame)
    (vertices indices : Nat) :
    (∃ refusal, Refuses (takeLightGeometry vertices indices) d refusal d) ∨
      frame.vertices + vertices ≤ d.vertexRoom ∧ frame.indices + indices ≤ d.indexRoom ∧
        Yields (takeLightGeometry vertices indices) d ()
          (d.inFrame { frame with
            vertices := frame.vertices + vertices, indices := frame.indices + indices }) := by
  have hneed := yields_needFrame_of_eq hframe
  by_cases hroom : d.vertexRoom < frame.vertices + vertices ∨ d.indexRoom < frame.indices + indices
  · refine Or.inl ⟨.tooManyQuads d.capacities.maxLights, hneed.bind_refuses ?_⟩
    refine (yields_get d).bind_refuses ?_
    rw [if_pos hroom]
    rfl
  · obtain ⟨hvertices, hindices⟩ := not_or.mp hroom
    rw [Nat.not_lt] at hvertices hindices
    by_cases heven : indices % 2 = 0
    · have htake := yields_takeLightGeometry d hvertices hindices heven
      rw [inFrame_eq hframe] at htake
      exact Or.inr ⟨hvertices, hindices, htake⟩
    · refine Or.inl ⟨.oddIndices indices, hneed.bind_refuses ?_⟩
      refine (yields_get d).bind_refuses ?_
      rw [if_neg hroom]
      change Refuses (if indices % 2 ≠ 0 then _ else _) _ _ _
      rw [if_pos heven]
      rfl

theorem pushLightGeometry_cases (vertices indices : Nat) :
    (∃ refusal,
      Ends (pushLightGeometry alignment vertices indices) ⟨d, ws⟩ (.error refusal) ⟨d, ws⟩) ∨
      ∃ frame, d.frame = some frame ∧ frame.vertices + vertices ≤ d.vertexRoom ∧
        frame.indices + indices ≤ d.indexRoom ∧
        Ends (pushLightGeometry alignment vertices indices) ⟨d, ws⟩ (.ok ())
          ⟨d.inFrame { frame with
            vertices := frame.vertices + vertices, indices := frame.indices + indices },
            ws ++ lightWrites alignment frame vertices indices⟩ := by
  cases hframe : d.frame with
  | none =>
      exact Or.inl ⟨_, ((refuses_needFrame hframe).ends ws).bind_refused _⟩
  | some frame =>
      have hneed := yields_needFrame_of_eq hframe
      rcases takeLightGeometry_cases d hframe vertices indices with
        ⟨refusal, hrefuses⟩ | ⟨hvertices, hindices, htake⟩
      · exact Or.inl ⟨refusal, (hneed.ends ws).bind ((hrefuses.ends ws).bind_refused _)⟩
      · exact Or.inr ⟨frame, rfl, hvertices, hindices,
          (hneed.ends ws).bind ((htake.ends ws).bind (ends_write _ _))⟩

theorem uploadOcclusion_cases (occluders casters : Nat) :
    (∃ refusal, Refuses (uploadOcclusion occluders casters) d refusal d) ∨
      occluders ≤ d.capacities.maxOccluders ∧ casters ≤ d.casterRoom ∧
        Yields (uploadOcclusion occluders casters) d () d := by
  by_cases hoccluders : d.capacities.maxOccluders < occluders
  · refine Or.inl ⟨.tooManyOccluders occluders d.capacities.maxOccluders, ?_⟩
    refine (yields_get d).bind_refuses ?_
    rw [if_pos hoccluders]
    rfl
  · by_cases hcasters : d.casterRoom < casters
    · refine Or.inl ⟨.tooManyCasters casters d.capacities.maxShadowLights, ?_⟩
      refine (yields_get d).bind_refuses ?_
      rw [if_neg hoccluders]
      change Refuses (if d.casterRoom < casters then _ else _) _ _ _
      rw [if_pos hcasters]
      rfl
    · rw [Nat.not_lt] at hoccluders hcasters
      exact Or.inr ⟨hoccluders, hcasters, yields_uploadOcclusion hoccluders hcasters⟩

/-- Lights are refused at once, or their corners are written. -/
theorem pushLights_cases (vertices indices : Nat) :
    (∃ refusal, Ends (pushLights alignment vertices indices) ⟨d, ws⟩ (.error refusal) ⟨d, ws⟩) ∨
      ∃ frame answer, d.frame = some frame ∧ frame.vertices + vertices ≤ d.vertexRoom ∧
        frame.indices + indices ≤ d.indexRoom ∧
        (answer = .ok () ∨ answer = .error .noAtlas ∨ answer = .error .noTargets) ∧
        Ends (pushLights alignment vertices indices) ⟨d, ws⟩ answer
          ⟨d.inFrame { frame with
            vertices := frame.vertices + vertices, indices := frame.indices + indices },
            ws ++ lightWrites alignment frame vertices indices⟩ := by
  rcases needLightPass_cases d with hlit | hlit
  · rcases pushLightGeometry_cases alignment d ws vertices indices with
      ⟨refusal, hpush⟩ | ⟨frame, hframe, hvertices, hindices, hpush⟩
    · exact Or.inl ⟨refusal, (hlit.ends ws).bind (hpush.bind_refused _)⟩
    · obtain ⟨answer, hanswer, hrest⟩ := ends_needAtlas d
        (ws ++ lightWrites alignment frame vertices indices) { frame with
          vertices := frame.vertices + vertices, indices := frame.indices + indices }
      exact Or.inr ⟨frame, answer, hframe, hvertices, hindices, hanswer,
        (hlit.ends ws).bind (hpush.bind hrest)⟩
  · exact Or.inl ⟨_, (hlit.ends ws).bind_refused _⟩

end Cases

section Effects

variable {K : Type} (alignment : Nat) (d : GraphicsDevice)

/-- All that a command may do to a device, with the answer and with what it writes. -/
inductive Effect : Command K → Except Refusal Unit → List BufferWrite → GraphicsDevice → Prop
  | refused (c : Command K) (refusal : Refusal) : Effect c (.error refusal) [] d
  | kept (c : Command K) {d' : GraphicsDevice} (h : ∀ frame', d'.frame = some frame' →
      ∃ frame, d.frame = some frame ∧ frame'.uniforms = frame.uniforms) : Effect c (.ok ()) [] d'
  | opened : Effect .beginFrame (.ok ()) [] (d.inFrame ⟨0, 0, 0, false⟩)
  | uploaded {geometry : OcclusionGeometry K} {lightInstances : List (DepthInstance K)}
      (fovInstances : List (DepthInstance K))
      (hwalls : geometry.occluderCount ≤ d.capacities.maxOccluders)
      (hcasters : lightInstances.length ≤ d.casterRoom) :
      Effect (.uploadOcclusion geometry lightInstances fovInstances) (.ok ())
        (uploads alignment geometry lightInstances fovInstances) d
  | passed (c : Command K) {frame : DeviceFrame} (lit : Bool) {answer : Except Refusal Unit}
      (hframe : d.frame = some frame) (hroom : frame.uniforms + 1 ≤ uniformSlots)
      (hanswer : answer = .ok () ∨ answer = .error .noTargets) :
      Effect c answer [passWrite alignment frame]
        (d.inFrame { frame with uniforms := frame.uniforms + 1, inLightPass := lit })
  | drawn (c : Command K) {frame : DeviceFrame} {vertices indices : Nat}
      {answer : Except Refusal Unit} (hframe : d.frame = some frame)
      (hvertices : frame.vertices + vertices ≤ d.vertexRoom)
      (hindices : frame.indices + indices ≤ d.indexRoom)
      (hanswer : answer = .ok () ∨ answer = .error .noAtlas ∨ answer = .error .noTargets) :
      Effect c answer (lightWrites alignment frame vertices indices)
        (d.inFrame { frame with
          vertices := frame.vertices + vertices, indices := frame.indices + indices })

/-- A command has one of the effects. -/
def HasEffect (c : Command K) : Prop :=
  ∃ answer writes d', Ends (writing alignment c) ⟨d, []⟩ answer ⟨d', writes⟩ ∧
    Effect alignment d c answer writes d'

variable {alignment d}

theorem Effect.keep {d' : GraphicsDevice} (c : Command K) (h : d'.frame = d.frame) :
    Effect alignment d c (.ok ()) [] d' :=
  .kept c fun frame' hframe' => ⟨frame', h ▸ hframe', rfl⟩

theorem hasEffect_of_pushPass {c : Command K}
    (h : ∀ {answer s'}, Ends (pushPass alignment) ⟨d, []⟩ answer s' →
      Ends (writing alignment c) ⟨d, []⟩ answer s') : HasEffect alignment d c := by
  rcases pushPass_cases alignment d [] with
    ⟨refusal, hrefused⟩ | ⟨frame, answer, hframe, hroom, hanswer, hpassed⟩
  · exact ⟨_, _, _, h hrefused, .refused c refusal⟩
  · exact ⟨_, _, _, h hpassed, .passed c frame.inLightPass hframe hroom hanswer⟩

theorem hasEffect_of_pushLights {c : Command K} {vertices indices : Nat}
    (h : writing alignment c = pushLights alignment vertices indices) :
    HasEffect alignment d c := by
  unfold HasEffect
  rw [h]
  rcases pushLights_cases alignment d [] vertices indices with
    ⟨refusal, hrefused⟩ | ⟨frame, answer, hframe, hvertices, hindices, hanswer, hdrawn⟩
  · exact ⟨_, _, _, hrefused, .refused c refusal⟩
  · exact ⟨_, _, _, hdrawn, .drawn c hframe hvertices hindices hanswer⟩

/-- Each command has one of the effects. -/
theorem writing_effect (c : Command K) : HasEffect alignment d c := by
  cases c with
  | resizeTargets sizes =>
      rcases resizeTargets_cases (K := K) sizes d with ⟨hmade, -⟩ | ⟨name, size, -, -, hrefused⟩
      · exact ⟨_, _, _, Yields.ends hmade [], .keep _ rfl⟩
      · exact ⟨_, _, _, Refuses.ends hrefused [], .refused _ _⟩
  | resizeBuffers | uploadMaskAtlas | setDepthState =>
      exact ⟨_, _, _, rfl, .keep _ rfl⟩
  | beginFrame =>
      exact ⟨_, _, _, rfl, .opened⟩
  | uploadOcclusion geometry lightInstances fovInstances =>
      rcases uploadOcclusion_cases d geometry.occluderCount lightInstances.length with
        ⟨refusal, hrefuses⟩ | ⟨hwalls, hcasters, hyields⟩
      · exact ⟨_, _, _, (hrefuses.ends []).bind_refused _, .refused _ _⟩
      · exact ⟨_, _, _, (hyields.ends []).bind (ends_write _ _),
          .uploaded fovInstances hwalls hcasters⟩
  | clearDepthTarget target clear =>
      -- It looks for the frame before the targets; the draw below looks for the targets first.
      cases hframe : d.frame with
      | none =>
          have hrefuses := (refuses_needFrame hframe).bind fun _ => do let _ ← needTargets
          exact ⟨_, _, _, hrefuses.ends [], .refused _ _⟩
      | some frame =>
          obtain ⟨answer, hanswer, hends⟩ := ends_needTargets d [] frame
          rw [inFrame_eq hframe] at hends
          rcases hanswer with rfl | rfl
          · exact ⟨_, _, _, hends, .keep _ rfl⟩
          · exact ⟨_, _, _, hends, .refused _ _⟩
  | drawOcclusionDepth draw =>
      rcases needTargets_cases d with ⟨sizes, htargets⟩ | htargets
      · exact hasEffect_of_pushPass fun hpush => (htargets.ends []).bind hpush
      · exact ⟨_, _, _, (htargets.ends []).bind_refused _, .refused _ _⟩
  | beginLightPass pass =>
      rcases pushPass_cases alignment d [] with
        ⟨refusal, hrefused⟩ | ⟨frame, answer, hframe, hroom, rfl | rfl, hpassed⟩
      · exact ⟨_, _, _, hrefused.bind_refused _, .refused _ _⟩
      -- The frame is read a second time, and its pass is already counted then.
      · have hput : Yields (do
              let frame ← needFrame
              putFrame { frame with inLightPass := true })
            (d.inFrame { frame with uniforms := frame.uniforms + 1 }) ()
            (d.inFrame { frame with uniforms := frame.uniforms + 1, inLightPass := true }) :=
          (yields_needFrame d _).bind (yields_putFrame _ _)
        exact ⟨_, _, _, hpassed.bind (hput.ends _), .passed _ true hframe hroom (Or.inl rfl)⟩
      · exact ⟨_, _, _, hpassed.bind_refused _,
          .passed _ frame.inLightPass hframe hroom (Or.inr rfl)⟩
  | drawLightingFov | drawOccluderMask | blur | mergeWallBleed | applyFov =>
      exact hasEffect_of_pushPass fun hpush => hpush
  | drawLightBatch vertices indices =>
      by_cases hnone : vertices.length = 0 ∨ indices.length = 0
      · have hwriting : writing alignment (.drawLightBatch vertices indices) = Pure.pure () :=
          if_pos hnone
        unfold HasEffect
        rw [hwriting]
        exact ⟨_, _, _, rfl, .keep _ rfl⟩
      · exact hasEffect_of_pushLights (if_neg hnone)
  | drawShadowCaster draw =>
      exact hasEffect_of_pushLights rfl
  | endLightPass =>
      refine ⟨_, _, _, rfl, .kept _ ?_⟩
      intro frame' hframe'
      obtain ⟨frame, hframe, rfl⟩ := Option.map_eq_some_iff.mp hframe'
      exact ⟨frame, hframe, rfl⟩
  | endFrame =>
      cases hframe : d.frame with
      | none =>
          have hrefuses : Refuses endFrame d .frameEnded d := by
            refine (yields_get d).bind_refuses ?_
            rw [hframe]
            rfl
          exact ⟨_, _, _, hrefuses.ends [], .refused _ _⟩
      | some frame =>
          have hyields : Yields endFrame d () { d with frame := none } := by
            refine (yields_get d).bind ?_
            rw [hframe]
            exact yields_modify _ d
          exact ⟨_, _, _, hyields.ends [], .kept _ fun frame' hframe' => nomatch hframe'⟩

end Effects

end GraphicsDevice

end Penumbra
