import Penumbra.Proofs.Frame.Protocol

/-!
# Frames that are refused a command

A frame that is refused a command ends there.  What was carried out until then is the beginning of
what is carried out otherwise, and the draw calls are counted up to that command.

**Results**

* `Counted`, `Counted.getElem`: each refused command leaves a count of what comes before it.
* `counted_script`, `counted_pass`: a frame counts its draw calls as it goes.
* `frame_refused`: what is recorded and counted of a frame, whichever command is refused.
-/

namespace Penumbra

variable {K S : Type}

section Counted

theorem drawCallsOf_append (cs cs' : List (Command K)) :
    drawCallsOf (cs ++ cs') = drawCallsOf cs + drawCallsOf cs' := by
  induction cs with
  | nil =>
      exact (Nat.zero_add _).symm
  | cons c rest ih =>
      rw [List.cons_append, drawCallsOf, ih, drawCallsOf, Nat.add_assoc]

/-- Each command leaves, if it is refused, the draw calls of those before it, from a number on. -/
def Counted (count : S → Nat) : Nat → List (Command K × S) → Prop
  | _, [] => True
  | n, (c, s) :: rest => count s = n ∧ Counted count (n + c.drawCalls) rest

variable {count : S → Nat} {n : Nat} {steps : List (Command K × S)}

theorem Counted.append {more : List (Command K × S)} (h : Counted count n steps)
    (hmore : Counted count (n + drawCallsOf (steps.map (·.1))) more) :
    Counted count n (steps ++ more) := by
  induction steps generalizing n with
  | nil =>
      exact hmore
  | cons x rest ih =>
      refine ⟨h.1, ih h.2 ?_⟩
      rwa [Nat.add_assoc]

theorem Counted.map {T : Type} {count' : T → Nat} {f : S → T} (hf : ∀ s, count' (f s) = count s)
    (h : Counted count n steps) : Counted count' n (steps.map fun x => (x.1, f x.2)) := by
  induction steps generalizing n with
  | nil =>
      trivial
  | cons x rest ih =>
      exact ⟨(hf x.2).trans h.1, ih h.2⟩

theorem Counted.getElem (h : Counted count n steps) (i : Nat) (hi : i < steps.length) :
    count steps[i].2 = n + drawCallsOf ((steps.map (·.1)).take i) := by
  induction steps generalizing n i with
  | nil =>
      exact absurd hi (Nat.not_lt_zero i)
  | cons x rest ih =>
      cases i with
      | zero =>
          exact h.1
      | succ i =>
          rw [List.getElem_cons_succ, ih h.2 i (Nat.lt_of_succ_lt_succ hi), List.map_cons,
            List.take_succ_cons, drawCallsOf, Nat.add_assoc]

end Counted

section Pass

theorem counted_script (s : FrameState K) (t : Trace K) (b : LightBatch K) :
    Counted (fun s : FrameState K => s.stats.drawCalls) s.stats.drawCalls (s.script t b).steps := by
  induction t generalizing s with
  | nil =>
      trivial
  | cons x rest ih =>
      exact ⟨rfl, ih (s.countDraws x.1.drawCalls)⟩

variable [Scalar K] (call : FrameCall K) {r : Renderer K}

theorem drawCallsOf_resizeCommands (r : Renderer K) (there : Option TargetSizes) :
    drawCallsOf (call.resizeCommands r there) = 0 := by
  unfold FrameCall.resizeCommands
  split <;> rfl

/-- A frame starts to count anew, and counts what is carried out. -/
theorem counted_pass (hr : r.InStep) :
    Counted (fun r : Renderer K => r.frame.stats.drawCalls) 0 (call.pass r).steps := by
  rw [pass_eq, framePass_eq r call hr.phase hr.one_le_capacity]
  refine Counted.map (fun _ => rfl) ?_
  let cleared := { r.frame with stats := FrameStats.zero }
  let opened := { cleared with targetSizes := some (call.sizes r) }
  split
  · have hresize : Counted (fun s : FrameState K => s.stats.drawCalls) 0
        (call.resizing r cleared) := by
      unfold FrameCall.resizing FrameCall.resizeCommands
      split
      · trivial
      · exact ⟨rfl, trivial⟩
    have hcount : drawCallsOf ((call.resizing r cleared).map (·.1)) = 0 := by
      rw [FrameCall.resizing, map_fst_map]
      exact drawCallsOf_resizeCommands call r _
    refine hresize.append ?_
    rw [hcount]
    refine ⟨rfl, ?_⟩
    change Counted _ 0 (call.sceneScript r opened).steps
    unfold FrameCall.sceneScript
    split
    · trivial
    · next selection geometry _ =>
        exact counted_script (opened.gathered selection geometry) _ _
  · trivial

/-- The counters that a frame answers stay in the renderer. -/
theorem stats_of_outcome (hr : r.InStep) {stats : FrameStats} {r' : Renderer K}
    (h : (call.pass r).outcome = .ok (stats, r')) : r'.frame.stats = stats := by
  rw [pass_eq, framePass_eq r call hr.phase hr.one_le_capacity] at h
  let opened :=
    { r.frame with stats := FrameStats.zero, targetSizes := some (call.sizes r) }
  split at h
  · cases houtcome : (call.sceneScript r opened).outcome with
    | error e =>
        simp only [opened] at houtcome
        simp only [houtcome] at h
        cases h
    | ok x =>
        simp only [opened] at houtcome
        simp only [houtcome] at h
        cases h
        rfl
  · cases h
    rfl

/-- A frame that has its lights and walls has a result, which counts all that is carried out. -/
theorem outcome_of_answered [TotallyOrdered K] (hr : r.InStep)
    (h : call.isActive r = true → call.Answered) :
    ∃ stats r', (call.pass r).outcome = .ok (stats, r') ∧
      stats.drawCalls = drawCallsOf (call.pass.commands r) := by
  cases hactive : call.isActive r with
  | false =>
      rw [Pass.commands, pass_of_inactive hr hactive]
      exact ⟨_, _, rfl, rfl⟩
  | true =>
      obtain ⟨selection, geometry, hscene⟩ :=
        exists_scene (h hactive) r r.frame.geometry.maxOccluders
      obtain ⟨hcommands, r', houtcome⟩ := pass_of_scene hr hactive hscene
      refine ⟨_, r', houtcome, ?_⟩
      rw [hcommands, drawCallsOf_append, drawCallsOf_resizeCommands]
      rfl

end Pass

section Frame

variable {D : Type} [Device D Float32] {config : Config Float32}
  {requests : List (Request Float32)} {device d : D} {answers : List (Except Failure Unit)}
  {r : Renderer Float32} {recorder : Recorder Float32}

/-- A frame of any session, carried out by a device that may refuse one command.  If that is one of
the commands of the frame, those before it are carried out and counted.  Otherwise all of them are,
and the frame has a result, but for a view that is nowhere. -/
theorem frame_refused (h : session config requests device = (answers, some r, d))
    (hrecorder : recorder.failAfter = none) (call : FrameCall Float32) :
    let whole := call.pass.run r recorder
    ∃ commands, whole.2.2 = recorder.keeping commands ∧
      (∀ n < commands.length,
        let refused := call.pass.run r (recorder.refusingAfter n)
        refused.1 = .error (.error (.backend Recorder.refusal)) ∧
        refused.2.2 = recorder.keeping (commands.take n) ∧
        refused.2.1.frame.stats.drawCalls = drawCallsOf (commands.take n)) ∧
      (∀ n, commands.length ≤ n →
        let spared := call.pass.run r (recorder.refusingAfter n)
        spared.1 = whole.1 ∧ spared.2.1 = whole.2.1 ∧
        spared.2.2 = (recorder.keeping commands).refusingAfter (n - commands.length)) ∧
      ((call.isActive r = true → call.Answered) → ∃ stats, whole.1 = .ok stats ∧
        whole.2.1.frame.stats = stats ∧ stats.drawCalls = drawCallsOf commands) ∧
      (¬(call.isActive r = true → call.Answered) →
        whole.1 = .error (.fault .unorderedInterval)) := by
  intro whole
  have hstep := inStep_session h
  have hcounted := counted_pass call hstep
  have hlength : (call.pass.commands r).length = (call.pass r).steps.length := List.length_map _
  have hwhole : whole = ((call.pass.ending r).1, (call.pass.ending r).2,
      recorder.keeping (call.pass.commands r)) := call.pass.run_recording r hrecorder
  refine ⟨call.pass.commands r, ?_, ?_, ?_, ?_, ?_⟩
  · rw [hwhole]
  · intro n hn refused
    rw [hlength] at hn
    have hrefused : refused = _ := call.pass.run_refusing r recorder hn
    rw [hrefused]
    refine ⟨rfl, ?_, ?_⟩
    · simp [Recorder.keeping, hrecorder]
    · exact (hcounted.getElem n hn).trans (Nat.zero_add _)
  · intro n hn spared
    rw [hlength] at hn
    have hspared : spared = _ := call.pass.run_spared r recorder hn
    rw [hspared, hwhole, hlength]
    exact ⟨rfl, rfl, rfl⟩
  · intro hanswered
    obtain ⟨stats, r', houtcome, hdraws⟩ := outcome_of_answered call hstep hanswered
    refine ⟨stats, ?_, ?_, hdraws⟩
    · rw [hwhole, Pass.ending, houtcome]
    · rw [hwhole, Pass.ending, houtcome]
      exact stats_of_outcome call hstep houtcome
  · intro hnowhere
    obtain ⟨hactive, hnowhere⟩ := not_forall.mp hnowhere
    rw [hwhole, Pass.ending, (pass_of_not_answered hstep hactive hnowhere).2]

/-- The fifteenth command of the frame draws a soft shadow, with three draw calls. -/
theorem frame_refused_twoLights :
    litLater = (litLater.1, some litRenderer, litLater.2.2) ∧ litLater.2.2.failAfter = none ∧
      ∃ commands stats, 15 < commands.length ∧
        (twoLightsView.pass.run litRenderer litLater.2.2).1 = .ok stats ∧
        stats.drawCalls = drawCallsOf commands ∧ stats.drawCalls = 24 ∧
        (twoLightsView.pass.run litRenderer litLater.2.2).2.2 = litLater.2.2.keeping commands ∧
        (twoLightsView.pass.run litRenderer (litLater.2.2.refusingAfter 11)).2.2 =
          litLater.2.2.keeping (commands.take 11) ∧
        drawCallsOf (commands.take 14) = 7 ∧ drawCallsOf (commands.take 15) = 10 := by
  have hlit : litLater.2.1.isSome = true ∧ litLater.2.2.failAfter = none ∧
      litLater.2.2.commands.size + 15 <
        (twoLightsView.pass.run litRenderer litLater.2.2).2.2.commands.size ∧
      (twoLightsView.pass.run litRenderer litLater.2.2).2.1.frame.stats.drawCalls = 24 ∧
      (twoLightsView.pass.run litRenderer
        (litLater.2.2.refusingAfter 14)).2.1.frame.stats.drawCalls = 7 ∧
      (twoLightsView.pass.run litRenderer
        (litLater.2.2.refusingAfter 15)).2.1.frame.stats.drawCalls = 10 := by
    decide +kernel
  obtain ⟨hsome, hrecorder, hsize, hall, hbefore, hafter⟩ := hlit
  have hsession : litLater = (litLater.1, some litRenderer, litLater.2.2) := eq_of_isSome hsome _
  obtain ⟨commands, hwhole, hrefused, -, hresult, -⟩ :=
    frame_refused hsession hrecorder twoLightsView
  have hn : 15 < commands.length := by
    rw [hwhole, Recorder.length_keeping] at hsize
    exact Nat.lt_of_add_lt_add_left hsize
  obtain ⟨stats, hstats, hkept, hcount⟩ := hresult fun _ => twoLights.answered rfl
  rw [(hrefused 14 (by omega)).2.2] at hbefore
  rw [(hrefused 15 hn).2.2] at hafter
  exact ⟨hsession, hrecorder, commands, stats, hn, hstats, hcount, hkept ▸ hall, hwhole,
    (hrefused 11 (by omega)).2.1, hbefore, hafter⟩

end Frame

end Penumbra
