import Penumbra.Proofs.Frame.Protocol
import Penumbra.Proofs.Frame.Recovery

/-!
# Changes of settings while frames are drawn

A renderer whose settings were changed while it was in use draws like one that begins with the last
settings, as long as nothing failed.  Only textures may have to be made in one case and not in the
other.

**Results**

* `Request.settings`, `lastSettings`, `config_session`: the settings that are in use in the end.
* `same_pass`: renderers that differ in what frames change, and in no more than frames make anew.
* `session_eq_restart`: a session and a new renderer.
-/

namespace Penumbra

variable {K : Type} [Scalar K]

section Settings

/-- The settings after a request, those before it unless it brings its own. -/
def Request.settings (current : Config K) : Request K → Config K
  | .applyConfig config => config
  | _ => current

/-- The settings after some requests. -/
def lastSettings (config : Config K) (requests : List (Request K)) : Config K :=
  requests.foldl Request.settings config

variable {D : Type} [Device D K] {r : Renderer K} {config : Config K} {requests : List (Request K)}
  {device d : D} {answers : List (Except Failure Unit)}

theorem config_run (request : Request K) (h : r.InStep) (d : D)
    (hok : (request.pass.run r d).1 = .ok ()) :
    (request.pass.run r d).2.1.config = request.settings r.config := by
  have hlast := leaves_of_outcome (Pass.outcome_of_run hok)
  generalize (request.pass.run r d).2.1 = last at hlast
  cases request with
  | loadMasks device prototypes load =>
      obtain ⟨masks, rfl⟩ := hlast
      rfl
  | applyConfig config =>
      rw [show last = r.afterConfig config from hlast, Renderer.afterConfig]
      split <;> rfl
  | drawFrame call =>
      obtain ⟨stats, houtcome⟩ := hlast
      rw [((settles_pass call h.one_le_capacity h.between).ok houtcome).same]
      rfl

theorem config_serveAll (requests : List (Request K)) (h : r.InStep) (d : D)
    (hok : ∀ answer ∈ (serveAll requests r d).1, answer = .ok ()) :
    (serveAll requests r d).2.1.config = lastSettings r.config requests := by
  induction requests generalizing r d with
  | nil =>
      rfl
  | cons request rest ih =>
      have hfirst := config_run request h d (hok _ (List.mem_cons_self ..))
      have hrest := ih (inStep_run request h d) (request.pass.run r d).2.2
        fun answer hanswer => hok answer (List.mem_cons_of_mem _ hanswer)
      rw [serveAll_cons, hrest, hfirst]
      rfl

theorem config_session (h : session config requests device = (answers, some r, d))
    (hok : ∀ answer ∈ answers, answer = .ok ()) : r.config = lastSettings config requests := by
  obtain ⟨d₀, -, hanswers, hserved⟩ := session_eq_some h
  have hlast := config_serveAll requests (rested_new config).toInStep d₀
    fun answer hanswer => hok answer (by rw [hanswers]; exact List.mem_cons_of_mem _ hanswer)
  rwa [hserved] at hlast

end Settings

section Restart

theorem unsized_resizeCommands (call : FrameCall K) (r : Renderer K) (there : Option TargetSizes)
    (cs : List (Command K)) : unsized (call.resizeCommands r there ++ cs) = unsized cs :=
  unsized_resize call r true there cs

/-- Two renderers draw a frame alike if frames of theirs have the same batch and the same room. -/
theorem same_pass {r : Renderer K} {frame : FrameState K} (h : r.InStep)
    (h' : { r with frame }.InStep) (hbatch : r.frame.batch = frame.batch) (call : FrameCall K) :
    (call.pass.ending r).1 = (call.pass.ending { r with frame }).1 ∧
      unsized (call.pass.commands r) = unsized (call.pass.commands { r with frame }) := by
  let other := { r with frame }
  have hroom : other.frame.geometry.maxOccluders = r.frame.geometry.maxOccluders :=
    h'.maxOccluders.trans h.maxOccluders.symm
  have hscene : call.scene other other.frame.geometry.maxOccluders =
      call.scene r r.frame.geometry.maxOccluders := by
    rw [hroom]
    rfl
  have hcommands : ∀ selection geometry,
      call.commands other selection geometry other.frame.batch =
        call.commands r selection geometry r.frame.batch := by
    intro selection geometry
    rw [hbatch]
    rfl
  cases hactive : call.isActive r with
  | false =>
      have hfirst := pass_of_inactive h hactive
      have hsecond := pass_of_inactive h' hactive
      simp only [Pass.ending, Pass.commands, hfirst, hsecond]
      trivial
  | true =>
      cases hfound : call.scene r r.frame.geometry.maxOccluders with
      | error fault =>
          obtain ⟨hfirst, hend⟩ := pass_of_fault h hactive hfound
          obtain ⟨hsecond, hend'⟩ := pass_of_fault h' hactive (hscene.trans hfound)
          simp only [Pass.ending, hend, hend', hfirst, hsecond]
          exact ⟨trivial, by rw [unsized_resizeCommands, unsized_resizeCommands]⟩
      | ok scene =>
          obtain ⟨selection, geometry⟩ := scene
          obtain ⟨hfirst, last, hend⟩ := pass_of_scene h hactive hfound
          obtain ⟨hsecond, last', hend'⟩ := pass_of_scene h' hactive (hscene.trans hfound)
          rw [hcommands] at hsecond hend'
          simp only [Pass.ending, hend, hend', hfirst, hsecond]
          exact ⟨trivial, by rw [unsized_resizeCommands, unsized_resizeCommands]⟩

/-- A renderer at rest is a new one with its settings and masks, but for what frames change. -/
theorem Renderer.Rested.eq_withMasks {r : Renderer K} (h : r.Rested) :
    r = { Renderer.withMasks r.config r.masks with frame := r.frame } := by
  obtain ⟨config, limits, fovColor, masks, frame⟩ := r
  obtain rfl : limits = Limits.ofConfig config := h.limits
  obtain rfl : fovColor = config.fovColorValue := h.fovColor
  rfl

theorem Renderer.Rested.batch_eq {r : Renderer K} (h : r.Rested) :
    (Renderer.withMasks r.config r.masks).frame.batch = r.frame.batch := by
  refine eq_of_empty ?_ h.quads rfl
  rw [h.capacity, h.limits]
  rfl

variable {D : Type} [Device D K] {r : Renderer K} {config : Config K} {requests : List (Request K)}
  {device d : D} {answers : List (Except Failure Unit)}

/-- After any requests that all succeed, a renderer has what follows from the last settings, and
draws each frame like a new renderer with these settings and the same masks, but for whether it asks
for textures. -/
theorem session_eq_restart (h : session config requests device = (answers, some r, d))
    (hok : ∀ answer ∈ answers, answer = .ok ()) :
    let last := lastSettings config requests
    r.config = last ∧ r.limits = Limits.ofConfig last ∧ r.fovColor = last.fovColorValue ∧
      r.frame.batch.capacity = min (max r.limits.batchQuads 1) 16384 ∧
      r.frame.geometry.maxOccluders = r.limits.maxOccluders ∧
      ∀ (call : FrameCall K) (recorder : Recorder K), recorder.failAfter = none →
        let next := call.pass.run r recorder
        let first := call.pass.run (Renderer.withMasks last r.masks) recorder
        next.1 = first.1 ∧ ∃ commands commands',
          next.2.2 = recorder.keeping commands ∧ first.2.2 = recorder.keeping commands' ∧
          unsized commands = unsized commands' := by
  intro last
  have hrested := rested_session h hok
  have hconfig : r.config = last := config_session h hok
  refine ⟨hconfig, ?_, ?_, hrested.capacity, hrested.maxOccluders, ?_⟩
  · rw [hrested.limits, hconfig]
  · rw [hrested.fovColor, hconfig]
  · intro call recorder hrecorder next first
    let new := Renderer.withMasks r.config r.masks
    have hnew : new.InStep := ⟨rfl, rfl, rfl, rfl, rfl⟩
    have hsame : { new with frame := r.frame } = r := hrested.eq_withMasks.symm
    obtain ⟨hanswer, hcommands⟩ := same_pass hnew (hsame ▸ hrested.toInStep) hrested.batch_eq call
    rw [hsame] at hanswer hcommands
    have hnext : next = _ := call.pass.run_recording r hrecorder
    have hfirst : first = _ := call.pass.run_recording _ hrecorder
    rw [hnext, hfirst, ← hconfig]
    exact ⟨hanswer.symm, _, _, rfl, rfl, hcommands.symm⟩

/-- A session that draws one light first, then each light by itself, and then both at once. -/
def roomier : List (Except Failure Unit) × Option (Renderer Float32) × Recorder Float32 :=
  session { Config.standard with maxLightCount := 1 }
    [.drawFrame twoLightsView, .applyConfig { Config.standard with batchQuads := 1 },
      .drawFrame twoLightsView, .applyConfig Config.standard]
    (Recorder.new Recorder.generous)

/-- The renderer of that session. -/
def roomierRenderer : Renderer Float32 := roomier.2.1.getD (Renderer.new Config.standard)

theorem session_eq_restart_roomier :
    roomier = (roomier.1, some roomierRenderer, roomier.2.2) ∧
      (∀ answer ∈ roomier.1, answer = .ok ()) ∧
      roomierRenderer.frame.batch.capacity = 256 ∧
      roomierRenderer.frame.geometry.maxOccluders = 2048 ∧
      (twoLightsView.pass.run roomierRenderer roomier.2.2).1 =
        (twoLightsView.pass.run (Renderer.withMasks Config.standard roomierRenderer.masks)
          roomier.2.2).1 := by
  have hrun : roomier.2.1.isSome = true ∧ roomier.2.2.failAfter = none ∧
      roomier.1 = [.ok (), .ok (), .ok (), .ok (), .ok ()] := by
    decide +kernel
  obtain ⟨hsome, hrecorder, hanswers⟩ := hrun
  have hsession : roomier = (roomier.1, some roomierRenderer, roomier.2.2) :=
    eq_of_isSome hsome _
  have hok : ∀ answer ∈ roomier.1, answer = .ok () := by
    simp [hanswers]
  obtain ⟨-, hlimits, -, hcapacity, hwalls, hframes⟩ := session_eq_restart hsession hok
  rw [hlimits] at hcapacity hwalls
  exact ⟨hsession, hok, hcapacity, hwalls, (hframes twoLightsView roomier.2.2 hrecorder).1⟩

end Restart

end Penumbra
