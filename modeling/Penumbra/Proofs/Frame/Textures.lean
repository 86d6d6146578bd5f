import Mathlib.Data.List.Induction
import Penumbra.Proofs.Frame.Buffers

/-!
# Textures and pictures

A frame draws into textures that follow from its picture and from the limits.  A renderer remembers
the sizes that its device made last, and asks for others when a frame needs them.  A change of
settings may make it forget them; a refused command never makes it remember sizes that are not there.

**Results**

* `SizesRun`, `sizesRun_frame`: what a frame asks for before it begins.
* `SizesRun.begun`, `SizesRun.asked_once`: what that says of its textures.
* `SizesKept`, `sizesKept_run`: all other requests leave textures alone.
* `Restyled`: textures have become stale since the device made them.
* `Renderer.Sized`, `sized_session`: what a renderer remembers is there.
* `session_textures`: textures of each frame of any session.
-/

namespace Penumbra

variable {K : Type}

/-- The sizes of the textures that a command asks for. -/
def Command.sizes? : Command K → Option TargetSizes
  | .resizeTargets sizes => some sizes
  | _ => none

section Frame

variable [Scalar K] {call : FrameCall K} {r : Renderer K}

variable (call r) in
/-- A frame asks for no textures once it has begun. -/
theorem sizes?_protocol (geometry : OcclusionGeometry K) (instances : List (DepthInstance K))
    (batches : List (List (LightVertex K) × List UInt16)) (casters : List (ShadowCasterDraw K)) :
    ∀ c ∈ call.protocol r geometry instances batches casters, c.sizes? = none := by
  have hlight : ∀ c ∈ call.lightProtocol r geometry.occluderCount batches casters,
      c.sizes? = none := by
    simp only [FrameCall.lightProtocol, List.forall_mem_append, List.forall_mem_cons,
      List.forall_mem_map, forall_mem_ite]
    simp [Command.sizes?]
  have hlit : r.config.drawLighting = true →
      ∀ c ∈ call.lightProtocol r geometry.occluderCount batches casters, c.sizes? = none :=
    fun _ => hlight
  simp only [FrameCall.protocol, bothSides, List.forall_mem_append, List.forall_mem_cons,
    forall_mem_ite, eq_true hlit]
  simp [Command.sizes?]

/-- A frame that draws begins with textures, and asks for none later. -/
theorem steps_textured (hr : r.InStep) (hactive : call.isActive r = true) :
    ∃ later, (call.pass r).steps = (call.resizeCommands r r.frame.targetSizes).map (fun c =>
        (c, { r with frame := { r.frame with stats := FrameStats.zero } })) ++ later ∧
      ∀ x ∈ later, x.1.sizes? = none ∧ x.2.frame.targetSizes = some (call.sizes r) := by
  obtain ⟨later, hsteps, hsized⟩ := steps_of_active hr hactive
  have hcommands : call.pass.commands r =
      call.resizeCommands r r.frame.targetSizes ++ later.map (·.1) := by
    rw [Pass.commands, hsteps, List.map_append, map_fst_map]
  have hnone : ∀ c ∈ later.map (·.1), c.sizes? = none := by
    cases hscene : call.scene r r.frame.geometry.maxOccluders with
    | error fault =>
        rw [(pass_of_fault hr hactive hscene).1, List.append_cancel_left_eq] at hcommands
        rw [← hcommands]
        simp [Command.sizes?]
    | ok scene =>
        obtain ⟨batches, casters, hprotocol⟩ :=
          commands_eq_protocol call hr (found_of_scene hscene) r.frame.batch
        rw [(pass_of_scene hr hactive hscene).1, hprotocol, List.append_cancel_left_eq] at hcommands
        rw [← hcommands]
        exact sizes?_protocol call r _ _ _ _
  exact ⟨later, hsteps, fun x hx => ⟨hnone _ (List.mem_map_of_mem hx), hsized x hx⟩⟩

/-- A frame that is refused nothing has textures that fit, unless it ends with a fault. -/
theorem ending_textured (hr : r.InStep) (hactive : call.isActive r = true) :
    (call.pass.ending r).2.frame.targetSizes = some (call.sizes r) ∨
      (call.pass.ending r).2 = r ∧ ∃ fault, (call.pass.ending r).1 = .error (.fault fault) := by
  cases hscene : call.scene r r.frame.geometry.maxOccluders with
  | error fault =>
      obtain ⟨-, houtcome⟩ := pass_of_fault hr hactive hscene
      rw [Pass.ending, houtcome]
      exact Or.inr ⟨rfl, fault, rfl⟩
  | ok scene =>
      obtain ⟨-, last, houtcome⟩ := pass_of_scene hr hactive hscene
      rw [Pass.ending, houtcome]
      exact Or.inl (targetSizes_of_outcome hr hactive houtcome)

/-- What a frame asks for, and what it leaves.  It asks for no textures, because those that are there
fit or because it does not begin; or it asks for some and is refused them; or it gets them first of
all. -/
inductive SizesRun (call : FrameCall K) (r : Renderer K) :
    Except Failure FrameStats → Renderer K → List (Command K × Bool) → Prop where
  | unasked {answer left asked}
      (hfit : r.frame.targetSizes = some (call.sizes r) ∨ asked = [])
      (hnone : ∀ x ∈ asked, x.1.sizes? = none)
      (hleft : left.frame.targetSizes = r.frame.targetSizes) : SizesRun call r answer left asked
  | refused {answer left} (hother : r.frame.targetSizes ≠ some (call.sizes r))
      (hleft : left.frame.targetSizes = r.frame.targetSizes) :
      SizesRun call r answer left [(.resizeTargets (call.sizes r), false)]
  | made {answer left later} (hother : r.frame.targetSizes ≠ some (call.sizes r))
      (hnone : ∀ x ∈ later, x.1.sizes? = none)
      (hleft : left.frame.targetSizes = some (call.sizes r) ∨
        ∃ fault, answer = .error (.fault fault)) :
      SizesRun call r answer left ((.resizeTargets (call.sizes r), true) :: later)

variable {D : Type} [Device D K]

theorem sizesRun_of_fitting (hr : r.InStep) (hactive : call.isActive r = true)
    (hfit : r.frame.targetSizes = some (call.sizes r)) (d : Logged D K) :
    ∃ asked, (call.pass.run r d).2.2.log = d.log ++ asked ∧
      SizesRun call r (call.pass.run r d).1 (call.pass.run r d).2.1 asked := by
  obtain ⟨later, hsteps, hlater⟩ := steps_textured hr hactive
  have hnoresize : call.resizeCommands r r.frame.targetSizes = [] := if_pos hfit
  rw [hnoresize, List.map_nil, List.nil_append] at hsteps
  obtain ⟨asked, hlog, hasked⟩ := call.pass.run_asked r d
  refine ⟨asked, hlog, .unasked (Or.inl hfit) ?_ ?_⟩
  · intro x hx
    obtain ⟨y, hy, hxy⟩ := List.mem_map.mp (hasked x hx)
    rw [hsteps] at hy
    rw [← hxy]
    exact (hlater y hy).1
  · rcases call.pass.run_watched r d with
      ⟨-, hstate, -⟩ | ⟨done, c, left, rest, message, hdone, -, hstate, -⟩
    · rw [hstate]
      rcases ending_textured hr hactive with hsized | ⟨hsame, -⟩
      · rw [hsized, hfit]
      · rw [hsame]
    · rw [hsteps] at hdone
      have hmem : (c, left) ∈ later := by
        rw [hdone]
        simp
      rw [hstate, (hlater _ hmem).2, hfit]

theorem sizesRun_of_other (hr : r.InStep) (hactive : call.isActive r = true)
    (hother : r.frame.targetSizes ≠ some (call.sizes r)) (d : Logged D K) :
    ∃ asked, (call.pass.run r d).2.2.log = d.log ++ asked ∧
      SizesRun call r (call.pass.run r d).1 (call.pass.run r d).2.1 asked := by
  obtain ⟨later, hsteps, hlater⟩ := steps_textured hr hactive
  have hresize : call.resizeCommands r r.frame.targetSizes = [.resizeTargets (call.sizes r)] :=
    if_neg hother
  rw [hresize, List.map_singleton, List.singleton_append] at hsteps
  have hcarried : ∀ steps, (∀ x ∈ steps, x ∈ later) →
      ∀ x ∈ carriedOut steps, x.1.sizes? = none := by
    intro steps hsub x hx
    obtain ⟨y, hy, rfl⟩ := List.mem_map.mp hx
    exact (hlater y (hsub y hy)).1
  rcases call.pass.run_watched r d with
    ⟨hanswer, hstate, hlog⟩ | ⟨done, c, left, rest, message, hdone, hanswer, hstate, hlog⟩
  · rw [hsteps] at hlog
    refine ⟨_, hlog, .made hother (hcarried later fun _ hx => hx) ?_⟩
    rw [hanswer, hstate]
    exact (ending_textured hr hactive).imp_right fun hfault => hfault.2
  · rw [hsteps] at hdone
    rw [List.append_assoc] at hlog
    refine ⟨_, hlog, ?_⟩
    rw [hstate]
    cases done with
    | nil =>
        -- The refused command is the one that asks for textures.
        cases hdone
        exact .refused hother rfl
    | cons first done =>
        obtain ⟨rfl, hrest⟩ := List.cons.inj hdone
        have hleft : (c, left) ∈ later := by
          rw [hrest]
          simp
        refine .made hother ?_ (Or.inl (hlater _ hleft).2)
        intro x hx
        rcases List.mem_append.mp hx with hx | hx
        · refine hcarried done ?_ x hx
          intro y hy
          rw [hrest]
          exact List.mem_append_left _ hy
        · rw [List.mem_singleton.mp hx]
          exact (hlater _ hleft).1

/-- Whatever a device refuses, a frame asks for textures at most once, and before it begins. -/
theorem sizesRun_frame (hr : r.InStep) (call : FrameCall K) (d : Logged D K) :
    ∃ asked, (call.pass.run r d).2.2.log = d.log ++ asked ∧
      SizesRun call r (call.pass.run r d).1 (call.pass.run r d).2.1 asked := by
  cases hactive : call.isActive r with
  | false =>
      have hpass := pass_of_inactive hr hactive
      have hall : Pass.performAll (call.pass r).steps d = (none, d) := by
        rw [hpass]
        rfl
      rw [Pass.run_of_ok hall (congrArg Script.outcome hpass)]
      exact ⟨[], (List.append_nil _).symm, .unasked (Or.inr rfl) (by simp) rfl⟩
  | true =>
      by_cases hfit : r.frame.targetSizes = some (call.sizes r)
      · exact sizesRun_of_fitting hr hactive hfit d
      · exact sizesRun_of_other hr hactive hfit d

end Frame

section Others

variable [Scalar K] {D : Type} [Device D K] {r : Renderer K}

/-- What loading masks or a change of settings asks for, and what it leaves.  It asks for no textures
and begins no frame; only a change of settings that makes textures stale makes the renderer forget
their sizes. -/
structure SizesKept (request : Request K) (r left : Renderer K) (asked : List (Command K × Bool)) :
    Prop where
  none_asked : ∀ x ∈ asked, x.1.sizes? = none ∧ x.1 ≠ .beginFrame
  left_eq : left.frame.targetSizes = r.frame.targetSizes ∨
    ∃ next, request = .applyConfig next ∧ (next.changesFrom r.config).renderTargets = true ∧
      left.frame.targetSizes = none

theorem targetSizes_afterConfig (r : Renderer K) (next : Config K) :
    (r.afterConfig next).frame.targetSizes = r.frame.targetSizes ∨
      (next.changesFrom r.config).renderTargets = true ∧
        (r.afterConfig next).frame.targetSizes = none := by
  unfold Renderer.afterConfig
  split
  · next hstale => exact Or.inr ⟨hstale, rfl⟩
  · exact Or.inl rfl

theorem sizesKept_applyConfig (hr : r.InStep) (next : Config K) (d : Logged D K) :
    ∃ asked, ((Renderer.applyConfig next).run r d).2.2.log = d.log ++ asked ∧
      SizesKept (.applyConfig next) r ((Renderer.applyConfig next).run r d).2.1 asked := by
  have hafter : (r.afterConfig next).frame.targetSizes = r.frame.targetSizes ∨
      ∃ next', Request.applyConfig next = .applyConfig next' ∧
        (next'.changesFrom r.config).renderTargets = true ∧
        (r.afterConfig next).frame.targetSizes = none :=
    (targetSizes_afterConfig r next).imp_right fun hstale => ⟨next, rfl, hstale⟩
  generalize hrun : (Renderer.applyConfig next).run r d = run
  have hcases := configRun_applyConfig hr next d
  rw [hrun] at hcases
  cases hcases with
  | noRoom fault =>
      exact ⟨[], (List.append_nil _).symm, by simp, Or.inl rfl⟩
  | unasked _ =>
      exact ⟨[], (List.append_nil _).symm, by simp, hafter⟩
  | made device =>
      exact ⟨_, rfl, by simp [Command.sizes?], hafter⟩
  | refused message device =>
      exact ⟨_, rfl, by simp [Command.sizes?], Or.inl rfl⟩

theorem sizesKept_loadMasks (device : Capabilities) (prototypes : List MaskPrototype)
    (load : String → Option Image) (r : Renderer K) (d : Logged D K) :
    ∃ asked, ((Renderer.loadMasks device prototypes load).run r d).2.2.log = d.log ++ asked ∧
      SizesKept (.loadMasks device prototypes load) r
        ((Renderer.loadMasks device prototypes load).run r d).2.1 asked := by
  obtain ⟨asked, hlog, hasked⟩ := (Renderer.loadMasks device prototypes load).run_asked r d
  obtain ⟨masks, hleft⟩ := loadMasks_run_eq device prototypes load r d
  have hnone : ∀ x ∈ asked, x.1.sizes? = none ∧ x.1 ≠ .beginFrame := by
    intro x hx
    obtain ⟨image, himage⟩ := uploads_of_loadMasks device prototypes load r _ (hasked x hx)
    simp [himage, Command.sizes?]
  exact ⟨asked, hlog, hnone, Or.inl (by rw [hleft])⟩

/-- Only frames ask for textures, and only frames begin. -/
theorem sizesKept_run (hr : r.InStep) {request : Request K}
    (hother : ∀ call, request ≠ .drawFrame call) (d : Logged D K) :
    ∃ asked, (request.pass.run r d).2.2.log = d.log ++ asked ∧
      SizesKept request r (request.pass.run r d).2.1 asked := by
  cases request with
  | loadMasks device prototypes load =>
      exact sizesKept_loadMasks device prototypes load r d
  | applyConfig next =>
      exact sizesKept_applyConfig hr next d
  | drawFrame call =>
      exact absurd rfl (hother call)

end Others

section Session

variable [Scalar K] {D : Type} [Device D K] {config : Config K} {requests : List (Request K)}
  {r : Renderer K} {device : D} {d : Logged D K} {answers : List (Except Failure Unit)}

/-- A change of settings has made textures stale since the device made some last. -/
def Restyled (config : Config K) (requests : List (Request K)) (device : D)
    (log : List (Command K × Bool)) : Prop :=
  ∃ before next after answers r d, requests = before ++ .applyConfig next :: after ∧
    session config before (Logged.new device) = (answers, some r, d) ∧
    (next.changesFrom r.config).renderTargets = true ∧
    ∃ since, log = d.log ++ since ∧ ∀ asked ∈ askedFor Command.sizes? since, asked.2 = false

theorem Restyled.concat {log more : List (Command K × Bool)} (h : Restyled config requests device log)
    (hmore : ∀ asked ∈ askedFor Command.sizes? more, asked.2 = false) (request : Request K) :
    Restyled config (requests ++ [request]) device (log ++ more) := by
  obtain ⟨before, next, after, answers, r, d, hrequests, hsession, hstale, since, hlog, hsince⟩ := h
  refine ⟨before, next, after ++ [request], answers, r, d, ?_, hsession, hstale, since ++ more, ?_, ?_⟩
  · rw [hrequests, List.append_assoc, List.cons_append]
  · rw [hlog, List.append_assoc]
  · intro asked hasked
    rw [askedFor_append, List.mem_append] at hasked
    exact hasked.elim (hsince asked) (hmore asked)

/-- The sizes that a renderer remembers are those of the textures that are there.  It remembers none
only if there are none or a change of settings has made them stale. -/
structure Renderer.Sized (r : Renderer K) (config : Config K) (requests : List (Request K))
    (device : D) (log : List (Command K × Bool)) : Prop where
  known : ∀ {sizes}, r.frame.targetSizes = some sizes →
    lastGranted Command.sizes? log = some sizes
  unknown : r.frame.targetSizes = none →
    lastGranted Command.sizes? log = none ∨ Restyled config requests device log

variable {left : Renderer K} {log asked : List (Command K × Bool)} {request : Request K}

theorem Renderer.Sized.of_kept (h : r.Sized config requests device log)
    (hasked : ∀ x ∈ askedFor Command.sizes? asked, x.2 = false)
    (hleft : left.frame.targetSizes = r.frame.targetSizes) :
    left.Sized config (requests ++ [request]) device (log ++ asked) := by
  refine ⟨?_, ?_⟩
  · intro sizes hsizes
    rw [lastGranted_append_of_refused hasked]
    exact h.known (hleft.symm.trans hsizes)
  · intro hnone
    rw [lastGranted_append_of_refused hasked]
    exact (h.unknown (hleft.symm.trans hnone)).imp_right fun hstale => hstale.concat hasked request

omit [Scalar K] in
theorem askedFor_made (sizes : TargetSizes) (later : List (Command K × Bool)) :
    askedFor Command.sizes? ((.resizeTargets sizes, true) :: later) =
      (sizes, true) :: askedFor Command.sizes? later := rfl

omit [Scalar K] in
/-- Textures that a device makes are those that it made last, until it is asked again. -/
theorem lastGranted_made (log : List (Command K × Bool)) (sizes : TargetSizes)
    {later : List (Command K × Bool)} (hlater : ∀ x ∈ later, x.1.sizes? = none) :
    lastGranted Command.sizes? (log ++ (.resizeTargets sizes, true) :: later) = some sizes := by
  refine lastGranted_of_getLast? ?_
  rw [askedFor_append, askedFor_made, askedFor_of_none hlater, List.getLast?_concat]

theorem sized_frame (h : r.Sized config requests device d.log) (hr : r.InStep) {call : FrameCall K}
    (hended : ∀ fault, (call.pass.run r d).1 ≠ .error (.fault fault)) :
    (call.pass.run r d).2.1.Sized config (requests ++ [.drawFrame call]) device
      (call.pass.run r d).2.2.log := by
  obtain ⟨asked, hlog, hrun⟩ := sizesRun_frame hr call d
  rw [hlog]
  generalize (call.pass.run r d).1 = answer at hrun hended
  generalize (call.pass.run r d).2.1 = left at hrun ⊢
  cases hrun with
  | unasked hfit hnone hleft =>
      exact h.of_kept (by simp [askedFor_of_none hnone]) hleft
  | refused hother hleft =>
      exact h.of_kept (by simp [askedFor, Command.sizes?]) hleft
  | made hother hnone hleft =>
      have hsized : left.frame.targetSizes = some (call.sizes r) := by
        refine hleft.resolve_right ?_
        rintro ⟨fault, hfault⟩
        exact hended fault hfault
      refine ⟨?_, ?_⟩
      · intro sizes hsizes
        rw [lastGranted_made d.log _ hnone, ← hsized, hsizes]
      · intro hforgotten
        rw [hsized] at hforgotten
        cases hforgotten

theorem sized_other (h : r.Sized config requests device d.log) (hr : r.InStep)
    (hsession : session config requests (Logged.new device) = (answers, some r, d))
    {request : Request K} (hother : ∀ call, request ≠ .drawFrame call) :
    (request.pass.run r d).2.1.Sized config (requests ++ [request]) device
      (request.pass.run r d).2.2.log := by
  obtain ⟨asked, hlog, hkept⟩ := sizesKept_run hr hother d
  rw [hlog]
  have hnone : askedFor Command.sizes? asked = [] :=
    askedFor_of_none fun x hx => (hkept.none_asked x hx).1
  rcases hkept.left_eq with hsame | ⟨next, rfl, hstale, hforgotten⟩
  · exact h.of_kept (by simp [hnone]) hsame
  · refine ⟨?_, ?_⟩
    · intro sizes hsizes
      rw [hforgotten] at hsizes
      cases hsizes
    · intro _
      exact Or.inr ⟨requests, next, [], answers, r, d, rfl, hsession, hstale, asked, rfl,
        by simp [hnone]⟩

/-- Whatever a device refuses, a renderer remembers the sizes of textures that are there. -/
theorem sized_session
    (h : session config requests (Logged.new device) = (answers, some r, d))
    (hended : ∀ answer ∈ answers, ∀ fault, answer ≠ .error (.fault fault)) :
    r.Sized config requests device d.log := by
  -- From the last request backwards, because what is stale is told of the requests before it.
  induction requests using List.reverseRecOn generalizing answers r d with
  | nil =>
      obtain ⟨d₀, hd₀, -, hserved⟩ := session_eq_some h
      cases hserved
      have hnone : askedFor Command.sizes? d.log = [] := by
        obtain ⟨-, hlog⟩ := Pass.outcome_of_run_ok (session_created h)
        rw [← hd₀, hlog, create_eq]
        rfl
      refine ⟨?_, ?_⟩
      · intro sizes hsizes
        cases hsizes
      · intro _
        exact Or.inl (by rw [lastGranted, hnone]; rfl)
  | append_singleton requests request ih =>
      obtain ⟨answers₀, r₀, d₀, hbefore, rfl, hrun⟩ := session_concat h
      have hr := inStep_session hbefore
      have hsized := ih hbefore fun answer hanswer => hended answer (List.mem_append_left _ hanswer)
      have hlast : ∀ fault, (request.pass.run r₀ d₀).1 ≠ .error (.fault fault) :=
        hended _ (by simp)
      obtain rfl : (request.pass.run r₀ d₀).2.1 = r := congrArg Prod.fst hrun
      obtain rfl : (request.pass.run r₀ d₀).2.2 = d := congrArg Prod.snd hrun
      by_cases hframe : ∃ call, request = .drawFrame call
      · obtain ⟨call, rfl⟩ := hframe
        rw [drawFrame_run] at hlast ⊢
        refine sized_frame hsized hr ?_
        intro fault hfault
        rw [hfault] at hlast
        exact hlast fault rfl
      · exact sized_other hsized hr hbefore fun call hcall => hframe ⟨call, hcall⟩

/-- When a frame begins, the textures that were made last are those that it needs. -/
theorem SizesRun.begun {call : FrameCall K} {answer : Except Failure FrameStats}
    (h : SizesRun call r answer left asked)
    (hknown : r.frame.targetSizes = some (call.sizes r) →
      lastGranted Command.sizes? log = some (call.sizes r))
    {before after : List (Command K × Bool)} {granted : Bool}
    (hbegin : asked = before ++ (.beginFrame, granted) :: after) :
    lastGranted Command.sizes? (log ++ before) = some (call.sizes r) := by
  cases h with
  | unasked hfit hnone hleft =>
      have hsplit : asked ≠ [] := by
        simp [hbegin]
      have hbefore : askedFor Command.sizes? before = [] := by
        refine askedFor_of_none fun x hx => hnone x ?_
        rw [hbegin]
        exact List.mem_append_left _ hx
      rw [lastGranted_append_of_refused (by simp [hbefore])]
      exact hknown (hfit.resolve_right hsplit)
  | refused hother hleft =>
      cases before <;> simp at hbegin
  | made hother hnone hleft =>
      cases before with
      | nil =>
          cases hbegin
      | cons first before =>
          obtain ⟨rfl, rfl⟩ := List.cons.inj hbegin
          exact lastGranted_made log _ fun x hx => hnone x (List.mem_append_left _ hx)

/-- A frame asks for textures at most once, and only for others than the renderer remembers. -/
theorem SizesRun.asked_once {call : FrameCall K} {answer : Except Failure FrameStats}
    (h : SizesRun call r answer left asked) :
    askedFor Command.sizes? asked = [] ∨
      ∃ granted, askedFor Command.sizes? asked = [(call.sizes r, granted)] ∧
        r.frame.targetSizes ≠ some (call.sizes r) := by
  cases h with
  | unasked hfit hnone hleft =>
      exact Or.inl (askedFor_of_none hnone)
  | refused hother hleft =>
      exact Or.inr ⟨false, rfl, hother⟩
  | @made later hother hnone hleft =>
      exact Or.inr ⟨true, by rw [askedFor_made, askedFor_of_none hnone], hother⟩

/-- If a renderer does not remember some sizes, other textures are there, or none, or stale ones. -/
theorem Renderer.Sized.other (h : r.Sized config requests device log) {sizes : TargetSizes}
    (hother : r.frame.targetSizes ≠ some sizes) :
    lastGranted Command.sizes? log ≠ some sizes ∨ Restyled config requests device log := by
  cases hthere : r.frame.targetSizes with
  | none =>
      refine (h.unknown hthere).imp_left ?_
      intro hnone
      simp [hnone]
  | some there =>
      rw [hthere] at hother
      exact Or.inl (by rwa [h.known hthere])

/-- The textures of a frame of any session that no fault has ended, whatever was refused in it and is
refused now.  When the frame begins, the textures that the device made last are those that its
picture and the limits ask for.  It asks for them at most once, and only if they differ from those
made last, or there are none, or a change of settings has made them stale.  No other request asks for
textures or begins a frame. -/
theorem session_textures
    (h : session config requests (Logged.new device) = (answers, some r, d))
    (hended : ∀ answer ∈ answers, ∀ fault, answer ≠ .error (.fault fault)) :
    (∀ call : FrameCall K,
      let sizes := TargetSizes.new call.viewport r.limits
      ∃ asked, (call.pass.run r d).2.2.log = d.log ++ asked ∧
        (∀ before granted after, asked = before ++ (.beginFrame, granted) :: after →
          lastGranted Command.sizes? (d.log ++ before) = some sizes) ∧
        (askedFor Command.sizes? asked = [] ∨
          ∃ granted, askedFor Command.sizes? asked = [(sizes, granted)] ∧
            (lastGranted Command.sizes? d.log ≠ some sizes ∨
              Restyled config requests device d.log))) ∧
    ∀ request : Request K, (∀ call, request ≠ .drawFrame call) →
      ∃ asked, (request.pass.run r d).2.2.log = d.log ++ asked ∧
        ∀ x ∈ asked, x.1.sizes? = none ∧ x.1 ≠ .beginFrame := by
  have hr := inStep_session h
  have hsized := sized_session h hended
  refine ⟨?_, ?_⟩
  · intro call sizes
    obtain ⟨asked, hlog, hrun⟩ := sizesRun_frame hr call d
    refine ⟨asked, hlog, fun before granted after => hrun.begun hsized.known, ?_⟩
    refine hrun.asked_once.imp_right ?_
    rintro ⟨granted, hasked, hother⟩
    exact ⟨granted, hasked, hsized.other hother⟩
  · intro request hother
    obtain ⟨asked, hlog, hkept⟩ := sizesKept_run hr hother d
    exact ⟨asked, hlog, hkept.none_asked⟩

/-- A wider picture of the same world. -/
def widerView : FrameCall Float32 := { twoLightsView with viewport := ⟨⟨128, 64⟩, Vec2.one⟩ }

/-- A session whose second frame is refused wider textures. -/
def widerRefused :
    List (Except Failure Unit) × Option (Renderer Float32) × Logged (Recorder Float32) Float32 :=
  session Config.standard [.drawFrame twoLightsView, .drawFrame widerView]
    (Logged.new ((Recorder.new Recorder.generous).refusingAfter 34))

def widerRefusedRenderer : Renderer Float32 :=
  widerRefused.2.1.getD (Renderer.new Config.standard)

/-- What a frame asks for after that. -/
def askedAfterRefusal (call : FrameCall Float32) : List (Command Float32 × Bool) :=
  (call.pass.run widerRefusedRenderer widerRefused.2.2).2.2.log.drop widerRefused.2.2.log.length

/-- After wider textures were refused, a narrow picture finds its own, and a wide one asks again. -/
theorem session_textures_widerRefused :
    widerRefused = (widerRefused.1, some widerRefusedRenderer, widerRefused.2.2) ∧
      widerRefused.1 = [.ok (), .ok (), .error (.error (.backend Recorder.refusal))] ∧
      (∃ asked, (twoLightsView.pass.run widerRefusedRenderer widerRefused.2.2).2.2.log =
          widerRefused.2.2.log ++ asked ∧ asked.length = 31 ∧ askedFor Command.sizes? asked = [] ∧
        ∀ before granted after, asked = before ++ (.beginFrame, granted) :: after →
          lastGranted Command.sizes? (widerRefused.2.2.log ++ before) =
            some (TargetSizes.new twoLightsView.viewport widerRefusedRenderer.limits)) ∧
      ∃ asked, (widerView.pass.run widerRefusedRenderer widerRefused.2.2).2.2.log =
          widerRefused.2.2.log ++ asked ∧
        askedFor Command.sizes? asked =
          [(TargetSizes.new widerView.viewport widerRefusedRenderer.limits, true)] := by
  have hvalues : widerRefused.2.1.isSome = true ∧
      widerRefused.1 = [.ok (), .ok (), .error (.error (.backend Recorder.refusal))] ∧
      (askedAfterRefusal twoLightsView).length = 31 ∧
      askedFor Command.sizes? (askedAfterRefusal twoLightsView) = [] ∧
      askedFor Command.sizes? (askedAfterRefusal widerView) =
        [(TargetSizes.new widerView.viewport widerRefusedRenderer.limits, true)] := by
    decide +kernel
  obtain ⟨hsome, hanswers, hlength, hnarrow, hwide⟩ := hvalues
  have hsession : widerRefused = (widerRefused.1, some widerRefusedRenderer, widerRefused.2.2) :=
    eq_of_isSome hsome _
  have hended : ∀ answer ∈ widerRefused.1, ∀ fault, answer ≠ .error (.fault fault) := by
    rw [hanswers]
    simp
  obtain ⟨hframes, -⟩ := session_textures hsession hended
  obtain ⟨narrow, hnarrowLog, hbegins, -⟩ := hframes twoLightsView
  obtain ⟨wide, hwideLog, -⟩ := hframes widerView
  rw [askedAfterRefusal, hnarrowLog, List.drop_left] at hlength hnarrow
  rw [askedAfterRefusal, hwideLog, List.drop_left] at hwide
  exact ⟨hsession, hanswers, ⟨narrow, hnarrowLog, hlength, hnarrow, hbegins⟩, wide, hwideLog, hwide⟩

end Session

end Penumbra
