import Penumbra.Proofs.Frame.Outcome
import Penumbra.Proofs.Frame.Refusal

/-!
# Runs of the depth passes

The depth maps are drawn any number of times, for any walls and on devices that refuse whatever they
like.  The phases are idle after each run, so that the next one may begin, and what is carried out of
a run is in order up to the command that is refused: nothing is drawn into a map that was not cleared
in the same run.

**Results**

* `EachAfter`, `EachAfter.of_begins`: what is asked of each command and of those before it.
* `inTurn_depthCommands`: the commands of the depth maps are in order.
* `DepthCall.run_spec`: a run ends idle, and a device carries out the beginning of these commands.
* `drawDepths_sound`: any number of runs.
-/

namespace Penumbra

variable {K : Type}

namespace Command

/-- The depth map that a command clears. -/
def clearedTarget? : Command K → Option DepthTarget
  | .clearDepthTarget target _ => some target
  | _ => none

/-- What a command draws into a depth map. -/
def depthDraw? : Command K → Option (DepthDraw K)
  | .drawOcclusionDepth draw => some draw
  | _ => none

/-- The depth map that a command clears or draws into. -/
def depthTarget? (c : Command K) : Option DepthTarget :=
  c.clearedTarget?.or (c.depthDraw?.map (·.target))

end Command

section EachAfter

/-- Each command stands as it should after those before it. -/
def EachAfter (P : List (Command K) → Command K → Prop) :
    List (Command K) → List (Command K) → Prop
  | _, [] => True
  | before, c :: rest => P before c ∧ EachAfter P (before ++ [c]) rest

variable {P : List (Command K) → Command K → Prop} {before cs cs' : List (Command K)}

theorem EachAfter.append (h : EachAfter P before cs) (h' : EachAfter P (before ++ cs) cs') :
    EachAfter P before (cs ++ cs') := by
  induction cs generalizing before with
  | nil =>
      rwa [List.append_nil] at h'
  | cons c rest ih =>
      refine ⟨h.1, ih h.2 ?_⟩
      rwa [List.append_assoc]

theorem EachAfter.split {done rest : List (Command K)} {c : Command K}
    (h : EachAfter P before (done ++ c :: rest)) : P (before ++ done) c := by
  induction done generalizing before with
  | nil =>
      rw [List.append_nil]
      exact h.1
  | cons x done ih =>
      have hlater := ih h.2
      rwa [List.append_assoc] at hlater

/-- It does not matter where commands end. -/
theorem EachAfter.of_begins (h : EachAfter P [] cs) (hbegins : cs' <+: cs)
    {done rest : List (Command K)} {c : Command K} (hsplit : cs' = done ++ c :: rest) : P done c := by
  obtain ⟨more, rfl⟩ := hbegins
  rw [hsplit, List.append_assoc] at h
  have hsplit := h.split
  exact hsplit

end EachAfter

section Order

/-- A draw comes after the device was prepared and the map was cleared, and draws something; and once
the map of what is in sight was cleared, the shadow atlas is left alone. -/
def InTurn (before : List (Command K)) (c : Command K) : Prop :=
  (∀ draw, c = .drawOcclusionDepth draw →
    .setDepthState .prepared ∈ before ∧ (∃ clear, .clearDepthTarget draw.target clear ∈ before) ∧
      draw.vertexCount ≠ 0 ∧ draw.instanceCount ≠ 0) ∧
    (c.depthTarget? = some .shadowAtlas → .fovMap ∉ before.filterMap Command.clearedTarget?)

variable {before : List (Command K)}

theorem inTurn_of_other {c : Command K} (hdraw : c.depthDraw? = none)
    (htarget : c.depthTarget? ≠ some .shadowAtlas) : InTurn before c := by
  refine ⟨?_, fun h => absurd h htarget⟩
  rintro draw rfl
  cases hdraw

variable [Scalar K]

theorem inTurn_depthTargetCommands {target : DepthTarget} {vertexCount instanceCount : Nat}
    (hprepared : .setDepthState .prepared ∈ before)
    (hcleared : ∃ clear, .clearDepthTarget target clear ∈ before)
    (hfov : target = .shadowAtlas → .fovMap ∉ before.filterMap Command.clearedTarget?) :
    EachAfter InTurn before (depthTargetCommands target vertexCount instanceCount) := by
  obtain ⟨clear, hclear⟩ := hcleared
  rw [depthTargetCommands]
  split
  · trivial
  · next hsome =>
      rw [not_or] at hsome
      refine ⟨⟨?_, ?_⟩, ⟨?_, ?_⟩, trivial⟩
      · rintro draw hdraw
        cases hdraw
        exact ⟨hprepared, ⟨clear, hclear⟩, hsome⟩
      · exact fun h => hfov (Option.some.inj h)
      · rintro draw hdraw
        cases hdraw
        exact ⟨List.mem_append_left _ hprepared, ⟨clear, List.mem_append_left _ hclear⟩, hsome⟩
      · intro h
        rw [List.filterMap_append]
        simpa [Command.clearedTarget?] using hfov (Option.some.inj h)

theorem inTurn_draws (draws : Bool) {target : DepthTarget} {vertexCount instanceCount : Nat}
    (hprepared : .setDepthState .prepared ∈ before)
    (hcleared : ∃ clear, .clearDepthTarget target clear ∈ before)
    (hfov : target = .shadowAtlas → .fovMap ∉ before.filterMap Command.clearedTarget?) :
    EachAfter InTurn before
      (if draws then depthTargetCommands target vertexCount instanceCount else []) := by
  cases draws with
  | false => trivial
  | true => exact inTurn_depthTargetCommands hprepared hcleared hfov

/-- The commands of the depth maps are in order. -/
theorem inTurn_depthCommands (floatTargets : Bool) (geometry : OcclusionGeometry K)
    (passes : DepthPasses) :
    EachAfter InTurn [] (depthCommands floatTargets geometry passes) := by
  have hstate : ∀ (before : List (Command K)) state, InTurn before (.setDepthState state) :=
    fun before state => inTurn_of_other rfl (Option.some_ne_none _).symm
  have hfov : ∀ before : List (Command K),
      InTurn before (.clearDepthTarget .fovMap (depthClear floatTargets)) :=
    fun before => inTurn_of_other rfl fun h => DepthTarget.noConfusion (Option.some.inj h)
  rw [depthCommands]
  refine (((EachAfter.append ?_ ?_).append ?_).append ?_).append ?_
  · refine ⟨hstate _ _, ⟨?_, fun _ => List.not_mem_nil⟩, trivial⟩
    rintro draw hdraw
    cases hdraw
  · refine inTurn_draws _ (by simp) ⟨depthClear floatTargets, by simp⟩ fun _ => ?_
    exact (by decide : DepthTarget.fovMap ∉ [DepthTarget.shadowAtlas])
  · exact ⟨hfov _, trivial⟩
  · exact inTurn_draws _ (by simp) ⟨depthClear floatTargets, by simp⟩ DepthTarget.noConfusion
  · exact ⟨hstate _ _, trivial⟩

end Order

section Whole

variable [Scalar K] (floatTargets : Bool) (geometry : OcclusionGeometry K) (passes : DepthPasses)

theorem clearedTarget?_depthTargetCommands (target : DepthTarget) (vertexCount instanceCount : Nat) :
    (depthTargetCommands (K := K) target vertexCount instanceCount).filterMap
      Command.clearedTarget? = [] := by
  rw [depthTargetCommands]
  split <;> rfl

/-- Whatever is drawn, both maps are cleared, each of them once. -/
theorem clearedTarget?_depthCommands :
    (depthCommands floatTargets geometry passes).filterMap Command.clearedTarget? =
      [.shadowAtlas, .fovMap] := by
  have hnone : ∀ (draws : Bool) target vertexCount instanceCount,
      (if draws then depthTargetCommands (K := K) target vertexCount instanceCount
        else []).filterMap Command.clearedTarget? = [] := by
    rintro (_ | _) target vertexCount instanceCount
    · rfl
    · exact clearedTarget?_depthTargetCommands target vertexCount instanceCount
  rw [depthCommands]
  simp only [List.filterMap_append, hnone]
  rfl

theorem getLast?_depthCommands :
    (depthCommands floatTargets geometry passes).getLast? = some (.setDepthState .finalized) := by
  rw [depthCommands, List.getLast?_append]
  rfl

/-- The draw calls of the depth maps are their draws. -/
theorem drawCalls_depthCommands {c : Command K}
    (h : c ∈ depthCommands floatTargets geometry passes) :
    c.drawCalls = c.depthDraw?.toList.length := by
  have hdraws : ∀ (draws : Bool) target vertexCount instanceCount,
      c ∈ (if draws then depthTargetCommands target vertexCount instanceCount else []) →
      c.drawCalls = c.depthDraw?.toList.length := by
    rintro (_ | _) target vertexCount instanceCount hc
    · cases hc
    · rw [if_pos rfl, depthTargetCommands] at hc
      split at hc
      · cases hc
      · rcases List.mem_pair.mp hc with rfl | rfl
        · rfl
        · rfl
  rw [depthCommands] at h
  simp only [List.mem_append, List.mem_pair, List.mem_singleton] at h
  rcases h with ((((rfl | rfl) | h) | rfl) | h) | rfl
  · rfl
  · rfl
  · exact hdraws _ _ _ _ h
  · rfl
  · exact hdraws _ _ _ _ h
  · rfl

omit [Scalar K] in
theorem drawCallsOf_eq {cs : List (Command K)}
    (h : ∀ c ∈ cs, c.drawCalls = c.depthDraw?.toList.length) :
    drawCallsOf cs = (cs.filterMap Command.depthDraw?).length := by
  induction cs with
  | nil =>
      rfl
  | cons c rest ih =>
      have hhead := h c List.mem_cons_self
      rw [drawCallsOf, hhead, ih fun c' hc' => h c' (List.mem_cons_of_mem c hc')]
      cases hdraw : c.depthDraw? with
      | none =>
          rw [List.filterMap_cons_none hdraw]
          exact Nat.zero_add _
      | some draw =>
          rw [List.filterMap_cons_some hdraw]
          exact Nat.add_comm _ _

end Whole

section Runs

/-- A call for the depth maps, with the counters that it adds to. -/
structure DepthCall (K : Type) where
  floatTargets : Bool
  geometry : OcclusionGeometry K
  passes : DepthPasses
  stats : FrameStats

/-- What came of a call: the answer, what a device was asked for, and the state that is left. -/
structure DepthRun (K : Type) where
  call : DepthCall K
  answer : Except Failure Unit
  log : List (Command K × Bool)
  after : FrameState K

/-- The commands of a run that were carried out. -/
def DepthRun.recorded (run : DepthRun K) : List (Command K) := accepted run.log

variable {D : Type} [Scalar K] [Device D K]

/-- A call on a device that nothing was asked of yet. -/
def DepthCall.run (call : DepthCall K) (s : FrameState K) (device : D) : DepthRun K :=
  let (answer, s', d) := (drawDepth call.floatTargets call.geometry call.passes).run
    { s with stats := call.stats } (Logged.new device)
  ⟨call, answer, d.log, s'⟩

/-- The depth maps are drawn some times, each time on a device in any state. -/
def drawDepths (s : FrameState K) : List (DepthCall K × D) → List (DepthRun K)
  | [] => []
  | (call, device) :: rest =>
    let run := call.run s device
    run :: drawDepths run.after rest

/-- What holds of each run, whatever was refused. -/
structure DepthRun.Sound (run : DepthRun K) : Prop where
  ordered : ∀ fault, run.answer ≠ .error (.fault fault)
  idle : run.after.phase = .idle
  inTurn : ∀ before c rest, run.recorded = before ++ c :: rest → InTurn before c
  counted : run.after.stats.drawCalls =
    run.call.stats.drawCalls + (run.recorded.filterMap Command.depthDraw?).length
  whole : run.answer = .ok () →
    run.recorded.filterMap Command.clearedTarget? = [.shadowAtlas, .fovMap] ∧
      run.recorded.getLast? = some (.setDepthState .finalized)

variable (call : DepthCall K) (device : D) {s : FrameState K}

omit [Scalar K] [Device D K] in
/-- No step of a script changes the phase. -/
theorem phase_of_mem_script {s : FrameState K} {t : Trace K} {b : LightBatch K}
    {x : Command K × FrameState K} (h : x ∈ (s.script t b).steps) : x.2.phase = s.phase := by
  induction t generalizing s with
  | nil =>
      cases h
  | cons first rest ih =>
      rcases List.mem_cons.mp h with rfl | h
      · rfl
      · have hlater := ih h
        exact hlater

/-- A run from idle phases ends with idle phases, and a device carries out the beginning of the
commands of the depth maps; all of them if there is a result. -/
theorem DepthCall.run_spec (hs : s.phase = .idle) :
    let commands := depthCommands call.floatTargets call.geometry call.passes
    let run := call.run s device
    (run.answer = .ok () ∧ run.recorded = commands ∨
      (∃ message, run.answer = .error (.error (.backend message))) ∧ run.recorded <+: commands) ∧
    run.after.phase = .idle ∧
      run.after.stats.drawCalls = call.stats.drawCalls + drawCallsOf run.recorded := by
  intro commands run
  let start : FrameState K := { s with stats := call.stats }
  let trace : Trace K := commands.map fun c => (c, s.batch)
  have hpass : drawDepth call.floatTargets call.geometry call.passes start =
      start.script trace s.batch := drawDepth_eq _ _ _ hs
  have hcommands : (start.script trace s.batch).steps.map (·.1) = commands := by
    rw [script_steps, map_fst_map]
  rcases (drawDepth call.floatTargets call.geometry call.passes).run_accepted start
      (Logged.new device) with
    ⟨hanswer, hstate, hlog⟩ | ⟨done, c, left, rest, message, hsteps, hanswer, hstate, hlog⟩
  · have hrecorded : run.recorded = commands := by
      refine hlog.trans ?_
      rw [Pass.commands, hpass, hcommands]
      rfl
    rw [Pass.ending, hpass, FrameState.script_outcome] at hanswer hstate
    have hafter : run.after = start.after trace s.batch := hstate
    refine ⟨Or.inl ⟨hanswer, hrecorded⟩, ?_, ?_⟩
    · rw [hafter]
      exact hs
    · rw [hafter, hrecorded]
      change call.stats.drawCalls + drawCallsOf (trace.map (·.1)) = _
      rw [map_fst_map]
  · have hrecorded : run.recorded = done.map (·.1) := hlog
    have hafter : run.after = left := hstate
    rw [hpass] at hsteps
    rw [hsteps, List.map_append] at hcommands
    refine ⟨Or.inr ⟨⟨message, hanswer⟩, ?_⟩, ?_, ?_⟩
    · rw [hrecorded, ← hcommands]
      exact List.prefix_append _ _
    · rw [hafter]
      have hmem : (c, left) ∈ (start.script trace s.batch).steps := by
        rw [hsteps]
        exact List.mem_append_right _ List.mem_cons_self
      exact (phase_of_mem_script hmem).trans hs
    · rw [hafter, hrecorded]
      have hcounted := counted_script start trace s.batch
      rw [hsteps] at hcounted
      have hleft := hcounted.getElem done.length (by simp)
      simpa using hleft

theorem DepthCall.sound (hs : s.phase = .idle) : (call.run s device).Sound := by
  obtain ⟨hended, hidle, hcount⟩ := call.run_spec device hs
  have hbegins : (call.run s device).recorded <+:
      depthCommands call.floatTargets call.geometry call.passes := by
    rcases hended with ⟨-, hall⟩ | ⟨-, hbegins⟩
    · exact hall ▸ List.prefix_refl _
    · exact hbegins
  constructor
  case ordered =>
    intro fault hfault
    rcases hended with ⟨hok, -⟩ | ⟨⟨message, hrefused⟩, -⟩
    · rw [hok] at hfault
      cases hfault
    · rw [hrefused] at hfault
      cases hfault
  case idle => exact hidle
  case inTurn => exact fun before c rest => (inTurn_depthCommands _ _ _).of_begins hbegins
  case counted =>
    rw [hcount]
    refine congrArg _ (drawCallsOf_eq ?_)
    intro c hc
    exact drawCalls_depthCommands _ _ _ (hbegins.subset hc)
  case whole =>
    intro hok
    rcases hended with ⟨-, hall⟩ | ⟨⟨message, hrefused⟩, -⟩
    · rw [hall]
      exact ⟨clearedTarget?_depthCommands _ _ _, getLast?_depthCommands _ _ _⟩
    · rw [hrefused] at hok
      cases hok

/-- Any number of runs of the depth passes, for any walls, on devices that refuse whatever they like.
The phases never come out of their order and are idle after each run, what is carried out is in order
up to the command that is refused, and its draws are counted.  A run that is refused nothing clears
both maps once and puts the device back. -/
theorem drawDepths_sound (s : FrameState K) (calls : List (DepthCall K × D)) :
    ∀ run ∈ drawDepths { s with phase := .idle } calls, run.Sound := by
  suffices h : ∀ s : FrameState K, s.phase = .idle → ∀ run ∈ drawDepths s calls, run.Sound from
    h _ rfl
  intro s hs
  induction calls generalizing s with
  | nil =>
      intro run hrun
      cases hrun
  | cons first rest ih =>
      obtain ⟨call, device⟩ := first
      intro run hrun
      rcases List.mem_cons.mp hrun with rfl | hrun
      · exact call.sound device hs
      · exact ih _ (call.sound device hs).idle run hrun

/-- A call for both maps, with one face of a wall. -/
def oneFace : DepthCall Float32 where
  floatTargets := true
  geometry := ⟨1, 1, [default, default], [default, default], []⟩
  passes := ⟨1, true, true⟩
  stats := FrameStats.zero

/-- Two runs for it, of which the first is refused its second draw. -/
def refusedDraw : List (DepthRun Float32) :=
  let device : Recorder Float32 := Recorder.new Recorder.generous
  drawDepths { FrameState.new 1 1 with phase := .idle }
    [(oneFace, device.refusingAfter 3), (oneFace, device)]

theorem drawDepths_sound_refusedDraw :
    ∃ first second, refusedDraw = [first, second] ∧ first.Sound ∧ second.Sound ∧
      first.recorded.length = 3 ∧ first.after.stats.drawCalls = 1 ∧
      second.recorded.length = 8 ∧ second.after.stats.drawCalls = 4 := by
  have hsound : ∀ run ∈ refusedDraw, run.Sound := drawDepths_sound (FrameState.new 1 1) _
  obtain ⟨first, second, hruns⟩ : ∃ first second, refusedDraw = [first, second] := ⟨_, _, rfl⟩
  have hcounts : refusedDraw.map (fun run => (run.recorded.length, run.after.stats.drawCalls)) =
      [(3, 1), (8, 4)] := by
    decide +kernel
  rw [hruns] at hsound hcounts
  simp only [List.map_cons, List.cons.injEq, Prod.mk.injEq] at hcounts
  obtain ⟨⟨hfirst, hcalls⟩, ⟨hsecond, hcalls'⟩, -⟩ := hcounts
  exact ⟨first, second, hruns, hsound first List.mem_cons_self,
    hsound second (List.mem_cons_of_mem _ List.mem_cons_self), hfirst, hcalls, hsecond, hcalls'⟩

end Runs
end Penumbra
