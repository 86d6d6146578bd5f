import Penumbra.Frame.Depth
import Penumbra.Proofs.Frame.DeviceWrites
import Penumbra.Proofs.Frame.WallFaces

/-!
# Commands in any order

A device is asked for commands in any order.  How far a frame has filled a buffer is known to the
frame, while the buffer may be made anew below it; and of the walls only their number is checked.
Still nothing is ever written past the end of a buffer.

**Results**

* `OcclusionGeometry.Reachable.sized`: walls have the vertices that they should.
* `GraphicsDevice.Effect.within`: whatever a command writes ends inside of its buffer.
* `GraphicsDevice.Effect.took`: slots for uniforms are taken one after the other.
* `GraphicsDevice.calls_sound`: any commands in any order.
-/

namespace Penumbra

section Walls

variable {K : Type}

namespace OcclusionGeometry

variable [Scalar K] {g : OcclusionGeometry K}

/-- Buffers of walls that were made, and then resized, emptied and filled any number of times. -/
inductive Reachable : OcclusionGeometry K → Prop
  | new (maxOccluders : Nat) : Reachable (new maxOccluders)
  | resize {g g' : OcclusionGeometry K} {maxOccluders : Nat} (h : Reachable g)
      (hresize : g.resize maxOccluders = .ok g') : Reachable g'
  | clear {g : OcclusionGeometry K} (h : Reachable g) : Reachable g.clear
  | build {g : OcclusionGeometry K} (h : Reachable g) (index : SpatialIndex K) (eye : Eye K)
      (area : Box2 K) : Reachable (g.build index eye area)

theorem Reachable.sized (h : g.Reachable) : g.Sized := by
  cases h with
  | new maxOccluders =>
      exact Sized.new maxOccluders
  | resize h hresize =>
      unfold OcclusionGeometry.resize Memory.reserve at hresize
      split at hresize
      · cases hresize
        exact Sized.new _
      · cases hresize
  | clear h =>
      exact Sized.new _
  | build h index eye area =>
      exact sized_build _ _ _ _

end OcclusionGeometry

/-- Whether a command begins a frame. -/
def Command.beginsFrame : Command K → Bool
  | .beginFrame => true
  | _ => false

/-- A command as it can be asked for: walls come from a frame, and the eye has two rows. -/
def Command.Possible [Scalar K] : Command K → Prop
  | .uploadOcclusion geometry _ fovInstances => geometry.Reachable ∧ fovInstances.length = 2
  | _ => True

end Walls

section Room

variable {K : Type} {alignment : Nat} {capacities : BufferCapacities}

/-- What is written ends inside of the buffer. -/
def BufferWrite.Within (alignment : Nat) (capacities : BufferCapacities) (w : BufferWrite) : Prop :=
  w.offset + w.bytes ≤ w.buffer.size alignment capacities

theorem BufferWrite.items_within {b : DeviceBuffer} {first count : Nat}
    (h : first + count ≤ b.room capacities) :
    (BufferWrite.items alignment b first count).Within alignment capacities := by
  change first * b.itemBytes alignment + count * b.itemBytes alignment ≤ _
  rw [← Nat.add_mul]
  exact Nat.mul_le_mul_right _ h

theorem passUniformBytes_le_uniformStride (halign : 0 < alignment) :
    passUniformBytes ≤ uniformStride alignment := by
  have hdivided := Nat.div_add_mod (passUniformBytes + alignment - 1) alignment
  have hrest := Nat.mod_lt (passUniformBytes + alignment - 1) halign
  rw [uniformStride, Nat.mul_comm]
  omega

namespace GraphicsDevice

theorem passWrite_within (halign : 0 < alignment) {frame : DeviceFrame}
    (h : frame.uniforms + 1 ≤ uniformSlots) :
    (passWrite alignment frame).Within alignment capacities := by
  calc frame.uniforms * uniformStride alignment + passUniformBytes
      ≤ frame.uniforms * uniformStride alignment + uniformStride alignment :=
        Nat.add_le_add_left (passUniformBytes_le_uniformStride halign) _
    _ = (frame.uniforms + 1) * uniformStride alignment := (Nat.succ_mul _ _).symm
    _ ≤ uniformSlots * uniformStride alignment := Nat.mul_le_mul_right _ h

theorem lightWrites_within {d : GraphicsDevice} {frame : DeviceFrame} {vertices indices : Nat}
    (hvertices : frame.vertices + vertices ≤ d.vertexRoom)
    (hindices : frame.indices + indices ≤ d.indexRoom) :
    ∀ w ∈ lightWrites alignment frame vertices indices, w.Within alignment d.capacities := by
  intro w hw
  rcases List.mem_cons.mp hw with rfl | hw
  · exact BufferWrite.items_within hvertices
  · split at hw
    · cases hw
    · rw [List.mem_singleton.mp hw]
      exact BufferWrite.items_within hindices

/-- The room for walls is enough for as many as there may be, whatever their faces are. -/
theorem uploads_within {d : GraphicsDevice} {geometry : OcclusionGeometry K}
    {lightInstances fovInstances : List (DepthInstance K)} (hsized : geometry.Sized)
    (hfov : fovInstances.length = 2)
    (hwalls : geometry.occluderCount ≤ d.capacities.maxOccluders)
    (hcasters : lightInstances.length ≤ d.casterRoom) :
    ∀ w ∈ uploads alignment geometry lightInstances fovInstances,
      w.Within alignment d.capacities := by
  intro w hw
  obtain ⟨⟨b, count⟩, hpiece, rfl⟩ := List.mem_map.mp hw
  refine BufferWrite.items_within ?_
  rw [Nat.zero_add]
  have hsegments : geometry.fovVertices.length ≤ d.capacities.maxOccluders * 4 * 2 := by
    have houtline := hsized.fov_le
    omega
  have hpieces := List.mem_of_mem_filter hpiece
  simp only [List.mem_cons, List.not_mem_nil, or_false, Prod.mk.injEq] at hpieces
  rcases hpieces with ⟨rfl, rfl⟩ | ⟨rfl, rfl⟩ | ⟨rfl, rfl⟩ | ⟨rfl, rfl⟩ | ⟨rfl, rfl⟩
  · exact Nat.le_trans (Nat.le_trans hsized.light_le_fov hsegments) (Nat.le_max_left _ _)
  · exact Nat.le_trans hsegments (Nat.le_max_left _ _)
  · refine Nat.le_trans ?_ (Nat.le_max_left _ _)
    rw [hsized.mask_length]
    exact Nat.mul_le_mul_right _ hwalls
  · exact hcasters
  · exact Nat.le_of_eq hfov

variable [Scalar K] {d d' : GraphicsDevice} {c : Command K} {answer : Except Refusal Unit}
  {writes : List BufferWrite}

/-- Whatever is written ends inside of its buffer. -/
theorem Effect.within (halign : 0 < alignment) (hc : c.Possible)
    (h : Effect alignment d c answer writes d') :
    ∀ w ∈ writes, w.Within alignment d.capacities := by
  cases h with
  | refused | kept | opened =>
      intro w hw
      cases hw
  | uploaded fovInstances hwalls hcasters =>
      exact uploads_within hc.1.sized hc.2 hwalls hcasters
  | passed _ lit hframe hroom hanswer =>
      intro w hw
      rw [List.mem_singleton.mp hw]
      exact passWrite_within halign hroom
  | drawn _ hframe hvertices hindices hanswer =>
      exact lightWrites_within hvertices hindices

omit [Scalar K] in
/-- Buffers are not made anew by a command that writes to them. -/
theorem Effect.capacities_eq (h : Effect alignment d c answer writes d') (hwrites : writes ≠ []) :
    d'.capacities = d.capacities := by
  cases h with
  | refused | kept | opened =>
      exact absurd rfl hwrites
  | uploaded | passed | drawn =>
      rfl

end GraphicsDevice

/-- Whether a refusal tells of a frame or a light pass that is missing, or of a frame that is full. -/
def Refusal.isOfFrame : Refusal → Bool
  | .noFrame | .frameEnded | .noLightPass | .tooManyPasses | .tooManyQuads _ => true
  | _ => false

namespace GraphicsDevice

variable {d d' : GraphicsDevice} {c : Command K} {answer : Except Refusal Unit}
  {writes : List BufferWrite} {n : Nat}

/-- With such a refusal nothing has happened yet. -/
theorem Effect.unmoved {refusal : Refusal} (h : Effect alignment d c (.error refusal) writes d')
    (hrefusal : refusal.isOfFrame = true) : writes = [] ∧ d' = d := by
  cases h with
  | refused =>
      exact ⟨rfl, rfl⟩
  | passed _ lit hframe hroom hanswer =>
      rcases hanswer with hanswer | hanswer <;> cases hanswer
      cases hrefusal
  | drawn _ hframe hvertices hindices hanswer =>
      rcases hanswer with hanswer | hanswer | hanswer <;> cases hanswer <;> cases hrefusal

/-- The number of slots for uniforms that are written. -/
def uniformWrites (ws : List BufferWrite) : Nat := ws.countP fun w => w.buffer = .uniforms

/-- Some slots were taken, all of them in the frame in progress if there is one. -/
def Took (n : Nat) (d : GraphicsDevice) : Prop :=
  n ≤ uniformSlots ∧ ∀ frame, d.frame = some frame → n ≤ frame.uniforms

theorem uniformWrites_uploads (geometry : OcclusionGeometry K)
    (lightInstances fovInstances : List (DepthInstance K)) :
    uniformWrites (uploads alignment geometry lightInstances fovInstances) = 0 := by
  rw [uniformWrites, List.countP_eq_zero]
  intro w hw
  obtain ⟨⟨b, count⟩, hpiece, rfl⟩ := List.mem_map.mp hw
  have hpieces := List.mem_of_mem_filter hpiece
  simp only [List.mem_cons, List.not_mem_nil, or_false, Prod.mk.injEq] at hpieces
  rcases hpieces with ⟨rfl, rfl⟩ | ⟨rfl, rfl⟩ | ⟨rfl, rfl⟩ | ⟨rfl, rfl⟩ | ⟨rfl, rfl⟩ <;>
    simp [BufferWrite.items]

theorem uniformWrites_lightWrites (frame : DeviceFrame) (vertices indices : Nat) :
    uniformWrites (lightWrites alignment frame vertices indices) = 0 := by
  rw [uniformWrites, lightWrites]
  split <;> rfl

/-- Until the next frame begins, slots are taken one after the other. -/
theorem Effect.took (h : Effect alignment d c answer writes d') (hc : c.beginsFrame = false)
    (hn : Took n d) : Took (n + uniformWrites writes) d' := by
  obtain ⟨hslots, hframes⟩ := hn
  cases h with
  | refused =>
      exact ⟨hslots, hframes⟩
  | kept _ hkept =>
      refine ⟨hslots, ?_⟩
      intro frame' hframe'
      obtain ⟨frame, hframe, hsame⟩ := hkept frame' hframe'
      rw [hsame]
      exact hframes frame hframe
  | opened =>
      cases hc
  | uploaded =>
      rw [uniformWrites_uploads]
      exact ⟨hslots, hframes⟩
  | passed _ lit hframe hroom hanswer =>
      have htaken := Nat.succ_le_succ (hframes _ hframe)
      refine ⟨Nat.le_trans htaken hroom, ?_⟩
      intro frame' hframe'
      cases hframe'
      exact htaken
  | drawn _ hframe hvertices hindices hanswer =>
      rw [uniformWrites_lightWrites]
      have hbefore := hframes _ hframe
      refine ⟨hslots, ?_⟩
      intro frame' hframe'
      cases hframe'
      exact hbefore

end GraphicsDevice

end Room

section Calls

variable {K : Type} {alignment : Nat} {d : GraphicsDevice} {n : Nat}

namespace GraphicsDevice

/-- A call ends in a fault and changes nothing, or it goes by the rules and has one of the effects. -/
theorem call_cases (alignment : Nat) (d : GraphicsDevice) (c : Command K) :
    (∃ fault, d.call alignment c = ⟨c, d, .error fault, [], d⟩) ∨
      ∃ answer writes d', d.call alignment c = ⟨c, d, .ok answer, writes, d'⟩ ∧
        d.perform? c = (answer, d') ∧ Effect alignment d c answer writes d' := by
  rw [call]
  cases makes alignment c with
  | error fault =>
      exact Or.inl ⟨fault, rfl⟩
  | ok =>
      obtain ⟨answer, writes, d', hends, heffect⟩ := @writing_effect K alignment d c
      obtain ⟨more, hrules⟩ := writing_follows alignment c ⟨d, []⟩
      unfold Ends at hends hrules
      refine Or.inr ⟨answer, writes, d', ?_, ?_, heffect⟩
      · rw [hends]
      · have hsame := hends.symm.trans hrules
        cases hsame
        rfl

end GraphicsDevice

/-- What holds of each call. -/
structure DeviceCall.Sound (alignment : Nat) (call : DeviceCall K) : Prop where
  faulted : ∀ fault, call.answer = .error fault → call.writes = [] ∧ call.after = call.before
  performed : ∀ answer, call.answer = .ok answer →
    call.before.perform? call.command = (answer, call.after)
  within : ∀ w ∈ call.writes, w.offset + w.bytes ≤ w.buffer.size alignment call.before.capacities
  capacities_eq : call.writes ≠ [] → call.after.capacities = call.before.capacities
  unmoved : ∀ refusal, call.answer = .ok (.error refusal) → refusal.isOfFrame = true →
    call.writes = [] ∧ call.after = call.before

namespace GraphicsDevice

theorem call_sound [Scalar K] (halign : 0 < alignment) (d : GraphicsDevice) {c : Command K}
    (hc : c.Possible) : (d.call alignment c).Sound alignment := by
  rcases call_cases alignment d c with
    ⟨fault, hcall⟩ | ⟨answer, writes, d', hcall, hperform, heffect⟩
  · rw [hcall]
    constructor
    case faulted => exact fun _ _ => ⟨rfl, rfl⟩
    case performed => exact fun answer hanswer => nomatch hanswer
    case within => exact fun w hw => nomatch hw
    case capacities_eq => exact fun _ => rfl
    case unmoved => exact fun refusal hanswer => nomatch hanswer
  · rw [hcall]
    constructor
    case faulted => exact fun fault hanswer => nomatch hanswer
    case performed =>
      intro answer' hanswer
      cases hanswer
      exact hperform
    case within => exact heffect.within halign hc
    case capacities_eq => exact heffect.capacities_eq
    case unmoved =>
      intro refusal hanswer hrefusal
      cases hanswer
      exact heffect.unmoved hrefusal

theorem took_call {c : Command K} (hc : c.beginsFrame = false) (hn : Took n d) :
    Took (n + uniformWrites (d.call alignment c).writes) (d.call alignment c).after := by
  rcases call_cases alignment d c with ⟨fault, hcall⟩ | ⟨answer, writes, d', hcall, -, heffect⟩
  · rw [hcall]
    exact hn
  · rw [hcall]
    exact heffect.took hc hn

/-- What comes after some calls are calls as well, on the device that those leave. -/
theorem exists_calls_of_append {cs : List (Command K)} {earlier rest : List (DeviceCall K)}
    (h : d.calls alignment cs = earlier ++ rest) :
    ∃ d' cs', rest = GraphicsDevice.calls alignment d' cs' := by
  induction earlier generalizing d cs with
  | nil =>
      exact ⟨d, cs, h.symm⟩
  | cons call earlier ih =>
      cases cs with
      | nil =>
          cases h
      | cons c cs =>
          exact ih (List.cons.inj h).2

/-- Until the next frame begins, calls take no more slots than there are. -/
theorem uniformWrites_calls_le {cs : List (Command K)} {between later : List (DeviceCall K)}
    (h : d.calls alignment cs = between ++ later) (hn : Took n d)
    (hbetween : ∀ call ∈ between, call.command.beginsFrame = false) :
    n + uniformWrites (between.flatMap (·.writes)) ≤ uniformSlots := by
  induction between generalizing d cs n with
  | nil =>
      exact hn.1
  | cons call between ih =>
      cases cs with
      | nil =>
          cases h
      | cons c cs =>
          obtain ⟨rfl, hrest⟩ := List.cons.inj h
          have hcommand : (d.call alignment c).command = c := by
            rcases call_cases alignment d c with ⟨fault, hcall⟩ | ⟨answer, writes, d', hcall, -⟩ <;>
              rw [hcall]
          have hc := hbetween _ List.mem_cons_self
          rw [hcommand] at hc
          have hle := ih hrest (took_call hc hn) fun call hcall =>
            hbetween call (List.mem_cons_of_mem _ hcall)
          rw [List.flatMap_cons, uniformWrites, List.countP_append, ← Nat.add_assoc]
          exact hle

/-- **Nothing is written past the end of a buffer.**  A device is asked for commands in any order, in
or out of a frame, and buffers may be made anew at any time.  Whatever a command writes, refused in
the end or not, ends inside of the buffer as it is then.  From the beginning of a frame to that of
the next one no more uniforms are written than there are slots.  A refusal because of a frame or a
light pass that is missing, or because a frame is full, comes before anything has changed.  The build
that is modelled checks for overflow, so that buffers of more bytes than 64 bits can tell are not made
too small: asking for them is a fault, which changes nothing. -/
theorem calls_sound [Scalar K] (halign : 0 < alignment) (d : GraphicsDevice)
    {cs : List (Command K)} (hcs : ∀ c ∈ cs, c.Possible) :
    (∀ call ∈ d.calls alignment cs, call.Sound alignment) ∧
      ∀ earlier between later, d.calls alignment cs = earlier ++ between ++ later →
        (∀ call ∈ between, call.command.beginsFrame = false) →
        uniformWrites (between.flatMap (·.writes)) ≤ uniformSlots := by
  constructor
  · induction cs generalizing d with
    | nil =>
        intro call hcall
        cases hcall
    | cons c rest ih =>
        intro call hcall
        rcases List.mem_cons.mp hcall with rfl | hcall
        · exact call_sound halign d (hcs c List.mem_cons_self)
        · exact ih _ (fun c' hc' => hcs c' (List.mem_cons_of_mem _ hc')) call hcall
  · intro earlier between later hcalls hbetween
    rw [List.append_assoc] at hcalls
    obtain ⟨d', cs', hrest⟩ := exists_calls_of_append hcalls
    have hnone : Took 0 d' := ⟨Nat.zero_le _, fun _ _ => Nat.zero_le _⟩
    have hle := uniformWrites_calls_le hrest.symm hnone hbetween
    rwa [Nat.zero_add] at hle

/-- Buffers for one wall, filled with a wall in front of the eye. -/
def oneWall : OcclusionGeometry Float32 :=
  (OcclusionGeometry.new 1).build
    ⟨fun _ _ => [], fun _ _ => [⟨⟨1⟩, Occluder.tile, Pose.ofPosition ⟨0.0, 5.0⟩⟩]⟩
    ⟨Vec2.zero, ⟨1⟩, 0.0, Vec2.one, true, true⟩ Box2.zero

/-- A frame with lights but without masks, whose buffers are made anew before it ends. -/
def crowdedFrame : List (Command Float32) :=
  [.resizeTargets default, .beginFrame, .uploadOcclusion oneWall [] fovInstances,
    .beginLightPass default, .drawShadowCaster default, .resizeBuffers ⟨0, 2, 0⟩,
    .drawShadowCaster default, .drawShadowCaster default, .endFrame]

theorem calls_sound_crowdedFrame :
    let calls := (new 8192 false).calls 256 crowdedFrame
    0 < 256 ∧ (∀ c ∈ crowdedFrame, c.Possible) ∧ (∀ call ∈ calls, call.Sound 256) ∧
      calls.flatMap (·.writes) =
        [⟨.lightSegments, 0, 128⟩, ⟨.fovSegments, 0, 128⟩, ⟨.maskVertices, 0, 32⟩,
          ⟨.fovInstances, 0, 32⟩, ⟨.uniforms, 0, 64⟩, ⟨.lightVertices, 0, 320⟩,
          ⟨.lightVertices, 320, 320⟩] ∧
      uniformWrites ((calls.drop 2).flatMap (·.writes)) ≤ uniformSlots := by
  intro calls
  have hpossible : ∀ c ∈ crowdedFrame, c.Possible := by
    simp only [crowdedFrame, List.forall_mem_cons]
    exact ⟨trivial, trivial, ⟨.build (.new 1) _ _ _, rfl⟩, trivial, trivial, trivial, trivial,
      trivial, trivial, fun c hc => nomatch hc⟩
  obtain ⟨hsound, hslots⟩ := calls_sound (by decide : 0 < 256) (new 8192 false) hpossible
  refine ⟨by decide, hpossible, hsound, by decide +kernel, ?_⟩
  exact hslots (calls.take 2) (calls.drop 2) [] (by simp [calls]) (by decide +kernel)

end GraphicsDevice

end Calls
end Penumbra
