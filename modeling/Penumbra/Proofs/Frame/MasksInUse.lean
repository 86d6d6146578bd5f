import Penumbra.Proofs.Frame.AtlasUpload
import Penumbra.Proofs.Frame.Buffers
import Penumbra.Proofs.Frame.Recovery

/-!
# The masks in use

A renderer keeps the boxes of its masks, and the device keeps the atlas that they are boxes of.
Both change together, when an atlas is uploaded; a call that fails changes nothing.  Lights are
drawn with the boxes of the masks in use, but for quads of a batch that was refused earlier: these
are drawn later, as they were made then.

**Results**

* `Script.Settles.watched`: what a script leaves, and what it asked for.
* `exists_entry_of_mem`, `lightCorners_pass`: the corners that a frame draws of lights.
* `Reply`, `attend`: requests and how they are answered.
* `Renderer.Owes`, `owes_attend`: what is left in the batch between requests.
* `masks_reply`, `masks_attend`: the masks change only when an atlas is uploaded.
* `loadMasks_allOrNothing`: loading masks in any run.
-/

namespace Penumbra

variable {K : Type}

section Watched

variable {D S α : Type} [Device D K] {I : S → List (LightVertex K) → Prop} {p : Pass K S α} {s : S}
  {old : List (LightVertex K)}

/-- A script that settles leaves what goes with all that it asked for, whatever was refused. -/
theorem Script.Settles.watched (h : (p s).Settles I s old) (d : Logged D K) :
    ∃ more, (p.run s d).2.2.log = d.log ++ more ∧
      I (p.run s d).2.1 (more.foldl leftoverAfter old) := by
  rcases p.run_watched s d with
    ⟨-, hstate, hlog⟩ | ⟨done, c, left, rest, message, hsteps, -, hstate, hlog⟩
  · refine ⟨_, hlog, ?_⟩
    rw [hstate, Pass.ending]
    cases houtcome : (p s).outcome with
    | error e =>
        exact h.error houtcome
    | ok x =>
        exact h.ok houtcome
  · refine ⟨carriedOut done ++ [(c, false)], by rw [hlog, List.append_assoc], ?_⟩
    have hkeeps := h.keeps
    rw [hsteps] at hkeeps
    rw [hstate, List.foldl_append]
    exact hkeeps.refused

/-- What a device is asked for is the beginning of a pass. -/
theorem Pass.begins_asked (p : Pass K S α) (s : S) (d : Logged D K) :
    ∃ more, (p.run s d).2.2.log = d.log ++ more ∧ more.map (·.1) <+: p.commands s := by
  rcases p.run_watched s d with ⟨-, -, hlog⟩ | ⟨done, c, left, rest, message, hsteps, -, -, hlog⟩
  · refine ⟨_, hlog, ?_⟩
    rw [carriedOut, List.map_map]
    exact List.prefix_refl _
  · refine ⟨carriedOut done ++ [(c, false)], by rw [hlog, List.append_assoc], ?_⟩
    rw [Pass.commands, hsteps, carriedOut]
    exact ⟨rest.map (·.1), by simp [Function.comp_def]⟩

end Watched

section Corners

/-- The corners of lights that a command draws, with shadows or without. -/
def Command.lightCorners : Command K → List (LightVertex K)
  | .drawLightBatch vertices _ => vertices
  | .drawShadowCaster draw => draw.quad.vertices
  | _ => []

def lightCorners (cs : List (Command K)) : List (LightVertex K) := cs.flatMap Command.lightCorners

@[simp] theorem lightCorners_nil : lightCorners ([] : List (Command K)) = [] := rfl

@[simp] theorem lightCorners_cons (c : Command K) (cs : List (Command K)) :
    lightCorners (c :: cs) = c.lightCorners ++ lightCorners cs := rfl

@[simp] theorem lightCorners_append (cs cs' : List (Command K)) :
    lightCorners (cs ++ cs') = lightCorners cs ++ lightCorners cs' :=
  List.flatMap_append

@[simp] theorem lightCorners_ite (p : Prop) [Decidable p] (cs : List (Command K)) :
    lightCorners (if p then cs else []) = if p then lightCorners cs else [] :=
  apply_ite lightCorners p cs []

theorem lightCorners_map {α : Type} {f : α → Command K} {g : α → List (LightVertex K)}
    (h : ∀ x, (f x).lightCorners = g x) (xs : List α) : lightCorners (xs.map f) = xs.flatMap g := by
  rw [lightCorners, List.flatMap_map]
  exact congrArg (xs.flatMap ·) (funext h)

variable [Scalar K]

/-- A frame draws its batches, and then its lights with shadows. -/
theorem lightCorners_protocol (call : FrameCall K) (r : Renderer K) (geometry : OcclusionGeometry K)
    (instances : List (DepthInstance K)) (batches : List (List (LightVertex K) × List UInt16))
    (casters : List (ShadowCasterDraw K)) :
    lightCorners (call.protocol r geometry instances batches casters) =
      if r.config.drawLighting then
        batches.flatMap (·.1) ++ casters.flatMap fun draw => draw.quad.vertices
      else [] := by
  have hlight : lightCorners (call.lightProtocol r geometry.occluderCount batches casters) =
      batches.flatMap (·.1) ++ casters.flatMap fun draw => draw.quad.vertices := by
    have hbatches := lightCorners_map (K := K) (f := fun batch => .drawLightBatch batch.1 batch.2)
      (fun _ => rfl) batches
    have hcasters := lightCorners_map (K := K) (f := .drawShadowCaster) (fun _ => rfl) casters
    have hblurs (passes : List (BlurPass K)) : lightCorners (passes.map .blur) = [] := by
      rw [lightCorners_map (g := fun _ => []) (fun _ => rfl), List.flatMap_eq_nil_iff]
      exact fun _ _ => rfl
    simp [FrameCall.lightProtocol, Command.lightCorners, hbatches, hcasters, hblurs]
  simp only [FrameCall.protocol, bothSides, lightCorners_append, lightCorners_ite, hlight]
  cases r.config.drawLighting <;> simp [Command.lightCorners]

end Corners

section Entries

variable [Scalar K]

theorem mem_of_takeReaching {box : Box2 K} {room : Nat} {entries reaching : List (LightEntry K)}
    (h : takeReaching box room entries = .ok reaching) : ∀ e ∈ reaching, e ∈ entries := by
  induction entries generalizing room reaching with
  | nil =>
      cases room <;> cases h <;> exact fun _ he => he
  | cons e rest ih =>
      cases room with
      | zero =>
          cases h
          exact fun _ he => absurd he List.not_mem_nil
      | succ room =>
          simp only [takeReaching, bind, Except.bind] at h
          split at h
          · cases h
          · split at h
            · split at h
              · cases h
              · next hrest =>
                  cases h
                  exact List.forall_mem_cons.mpr
                    ⟨List.mem_cons_self, fun e he => List.mem_cons_of_mem _ (ih hrest e he)⟩
            · exact fun e he => List.mem_cons_of_mem _ (ih h e he)

/-- Each light of a frame is one that the index has, as it is with the masks in use. -/
theorem exists_entry_of_mem {index : SpatialIndex K} {query : LightQuery K} {masks : MaskAtlas K}
    {selection : LightSelection K} (h : selectLights index query masks = .ok selection)
    {light : PointLight K} (hlight : light ∈ selection.lights) :
    ∃ e ∈ index.lights query.eye.map query.worldBounds,
      light.unnumbered = e.project query masks := by
  obtain ⟨taken, htaken, rfl, -⟩ := exists_taken h
  have hplain := List.mem_map_of_mem (f := PointLight.unnumbered) hlight
  rw [LightSelection.ofReaching, assignRows_map_unnumbered] at hplain
  obtain ⟨kept, hkept, hsame⟩ := List.mem_map.mp hplain
  obtain ⟨e, he, rfl⟩ := List.mem_map.mp (mem_of_mem_keepNearest hkept)
  exact ⟨e, mem_of_takeReaching htaken e he, hsame.symm⟩

/-- A corner of a light that the index has, drawn with some masks. -/
def LightVertex.Shows (v : LightVertex K) (e : LightEntry K) (query : LightQuery K)
    (masks : MaskAtlas K) : Prop :=
  ∃ pixel world rowV, v = LightVertex.ofLight (e.project query masks) pixel world rowV

/-- A corner has the box of the light's mask. -/
theorem LightVertex.Shows.mask {v : LightVertex K} {e : LightEntry K} {query : LightQuery K}
    {masks : MaskAtlas K} (h : v.Shows e query masks) : v.mask = masks.uvBox e.light.mask := by
  obtain ⟨pixel, world, rowV, rfl⟩ := h
  rfl

theorem shows_of_lightQuad? {f : LightFrame K} {light : PointLight K} {rowV : K}
    {quad : LightQuad K} {scissor : ScissorRect}
    (h : f.lightQuad? light rowV = some (quad, scissor)) {e : LightEntry K} {query : LightQuery K}
    {masks : MaskAtlas K} (he : light.unnumbered = e.project query masks) :
    ∀ v ∈ quad.vertices, v.Shows e query masks := by
  have hcorner (pixel world : Vec2 K) :
      (LightVertex.ofLight light pixel world rowV).Shows e query masks :=
    ⟨pixel, world, rowV, by rw [← he]; rfl⟩
  unfold LightFrame.lightQuad? at h
  simp only at h
  split at h
  · cases h
  · cases h
    simp only [LightQuad.vertices, LightFrame.quadOf, List.forall_mem_cons]
    exact ⟨hcorner _ _, hcorner _ _, hcorner _ _, hcorner _ _, by simp⟩

variable {r : Renderer K}

/-- A frame draws what it finds in its batch at most, and then lights that the index has. -/
theorem lightCorners_pass (hr : r.InStep) (call : FrameCall K) :
    lightCorners (call.pass.commands r) = [] ∨
      ∃ own, lightCorners (call.pass.commands r) = r.frame.batch.vertices ++ own ∧
        ∀ v ∈ own, ∃ e ∈ call.index.lights call.eye.map (call.viewport.worldBounds call.eye),
          v.Shows e (r.lightQuery call.eye call.viewport) r.masks := by
  have hresize : lightCorners (call.resizeCommands r r.frame.targetSizes) = [] := by
    unfold FrameCall.resizeCommands
    split <;> rfl
  rcases pass_commands hr call with hnone | hbegun | ⟨selection, geometry, hactive, hscene, hall⟩
  · exact Or.inl (by rw [hnone]; rfl)
  · exact Or.inl (by rw [hbegun, lightCorners_append, hresize]; rfl)
  · rw [hall, lightCorners_append, hresize, lightCorners_protocol, List.nil_append, vertices_drawn,
      List.flatMap_append, List.append_assoc]
    by_cases hlighting : r.config.drawLighting = true
    · rw [if_pos hlighting]
      refine Or.inr ⟨_, rfl, ?_⟩
      obtain ⟨hselection, -⟩ := scene_inv r call hscene
      rw [List.forall_mem_append]
      constructor
      · intro v hv
        obtain ⟨quad, hquad, hv⟩ := List.mem_flatMap.mp hv
        obtain ⟨light, hlight, hmade⟩ := List.mem_filterMap.mp hquad
        obtain ⟨found, hfound, rfl⟩ := Option.map_eq_some_iff.mp hmade
        obtain ⟨e, he, hsame⟩ := exists_entry_of_mem hselection (List.mem_of_mem_filter hlight)
        exact ⟨e, he, shows_of_lightQuad? hfound hsame v hv⟩
      · intro v hv
        obtain ⟨draw, hdraw, hv⟩ := List.mem_flatMap.mp hv
        obtain ⟨light, hlight, hmade⟩ := List.mem_filterMap.mp hdraw
        obtain ⟨found, hfound, rfl⟩ := Option.map_eq_some_iff.mp hmade
        obtain ⟨e, he, hsame⟩ := exists_entry_of_mem hselection (List.mem_of_mem_filter hlight)
        exact ⟨e, he, shows_of_lightQuad? hfound hsame v hv⟩
    · rw [if_neg hlighting]
      exact Or.inl rfl

end Entries

section Replies

variable [Scalar K] {D : Type} [Device D K]

/-- What comes of a request: its answer, the counters after it, and what a device was asked for. -/
structure Reply (K : Type) where
  answer : Except Failure Unit
  stats : FrameStats
  asked : List (Command K × Bool)

/-- The reply to a request on some device, and the renderer after it. -/
def Renderer.reply (r : Renderer K) (request : Request K) (device : D) : Reply K × Renderer K :=
  let run := request.pass.run r (Logged.new device : Logged D K)
  (⟨run.1, run.2.1.frame.stats, run.2.2.log⟩, run.2.1)

/-- Serves one request after the other.  Each has a device of its own, which may refuse whatever it
likes. -/
def attend : List (Request K × D) → Renderer K → List (Reply K) × Renderer K
  | [], r => ([], r)
  | (request, device) :: rest, r =>
    let (reply, next) := r.reply request device
    let (replies, last) := attend rest next
    (reply :: replies, last)

/-- All that devices were asked for. -/
def askedIn (replies : List (Reply K)) : List (Command K × Bool) := replies.flatMap (·.asked)

theorem attend_cons (request : Request K) (device : D) (rest : List (Request K × D))
    (r : Renderer K) :
    attend ((request, device) :: rest) r =
      ((r.reply request device).1 :: (attend rest (r.reply request device).2).1,
        (attend rest (r.reply request device).2).2) := rfl

theorem attend_append (requests more : List (Request K × D)) (r : Renderer K) :
    attend (requests ++ more) r =
      ((attend requests r).1 ++ (attend more (attend requests r).2).1,
        (attend more (attend requests r).2).2) := by
  induction requests generalizing r with
  | nil =>
      rfl
  | cons first rest ih =>
      rw [List.cons_append, attend_cons, ih]
      rfl

/-- Masks are uploaded and taken over together, or the renderer stays as it is and nothing is
uploaded. -/
theorem reply_loadMasks (r : Renderer K) (capabilities : Capabilities)
    (prototypes : List MaskPrototype) (load : String → Option Image) (device : D) :
    let reply := r.reply (.loadMasks capabilities prototypes load) device
    let masks : MaskAtlas K := MaskAtlas.ofMasks (MaskAtlas.loadAll prototypes load)
    reply = (⟨.ok (), r.frame.stats, [(.uploadMaskAtlas masks.image, true)]⟩, { r with masks }) ∨
      ∃ e asked, reply = (⟨.error e, r.frame.stats, asked⟩, r) ∧
        (asked = [] ∨ asked = [(.uploadMaskAtlas masks.image, false)]) := by
  intro reply masks
  simp only [reply, Renderer.reply, Request.pass]
  by_cases hfits : MaskAtlas.Fits (MaskAtlas.loadAll prototypes load) (r.widestAtlas capabilities)
  · rw [Renderer.loadMasks_run_of_ok (MaskAtlas.build_of_fits hfits)]
    split
    · exact Or.inl rfl
    · exact Or.inr ⟨_, _, rfl, Or.inr rfl⟩
  · obtain ⟨failure, hfailure⟩ := MaskAtlas.build_of_not_fits (K := K) hfits
    rw [Renderer.loadMasks_run_of_error hfailure]
    exact Or.inr ⟨_, _, rfl, Or.inl rfl⟩

end Replies

section Batch

variable [Scalar K] {D : Type} [Device D K] {r : Renderer K} {old : List (LightVertex K)}

/-- Between requests the batch is empty, or it is the one that was refused last. -/
structure Renderer.Owes (r : Renderer K) (old : List (LightVertex K)) : Prop where
  inStep : r.InStep
  pending : r.frame.batch.vertices = [] ∨ r.frame.batch.vertices = old

omit [Scalar K] in
/-- A device that was asked for a batch has forgotten the one before. -/
theorem foldl_leftoverAfter_nil (log : List (Command K × Bool)) (old : List (LightVertex K)) :
    log.foldl leftoverAfter [] = [] ∨ log.foldl leftoverAfter [] = log.foldl leftoverAfter old := by
  induction log generalizing old with
  | nil =>
      exact Or.inl rfl
  | cons asked rest ih =>
      cases hbatch : asked.1.batch? with
      | none =>
          have hsame (old : List (LightVertex K)) : leftoverAfter old asked = old := by
            rw [leftoverAfter, hbatch]
          rw [List.foldl_cons, List.foldl_cons, hsame, hsame]
          exact ih old
      | some batch =>
          have hsame : leftoverAfter [] asked = leftoverAfter old asked := by
            rw [leftoverAfter, leftoverAfter, hbatch]
          rw [List.foldl_cons, List.foldl_cons, hsame]
          exact Or.inr rfl

/-- A change of settings leaves the batch or empties it. -/
theorem vertices_reconfigured (r : Renderer K) (config : Config K) :
    (r.reconfigured config).frame.batch.vertices = [] ∨
      (r.reconfigured config).frame.batch.vertices = r.frame.batch.vertices := by
  change (if (config.changesFrom r.config).lightCapacity then
      (LightBatch.new (Limits.ofConfig config).batchQuads : LightBatch K)
    else r.frame.batch).vertices = [] ∨ (if (config.changesFrom r.config).lightCapacity then
      (LightBatch.new (Limits.ofConfig config).batchQuads : LightBatch K)
    else r.frame.batch).vertices = _
  split
  · exact Or.inl rfl
  · exact Or.inr rfl

theorem batch_afterConfig (r : Renderer K) (config : Config K) :
    (r.afterConfig config).frame.batch = (r.reconfigured config).frame.batch := by
  unfold Renderer.afterConfig
  split <;> rfl

theorem owes_reply (h : r.Owes old) (request : Request K) (device : D) :
    (r.reply request device).2.Owes ((r.reply request device).1.asked.foldl leftoverAfter old) := by
  refine ⟨inStep_run request h.inStep _, ?_⟩
  cases request with
  | loadMasks capabilities prototypes load =>
      rcases reply_loadMasks r capabilities prototypes load device with
        hreply | ⟨e, asked, hreply, rfl | rfl⟩ <;> rw [hreply] <;> exact h.pending
  | applyConfig config =>
      have hrun := configRun_applyConfig h.inStep config (Logged.new device : Logged D K)
      have hchanged : (r.reconfigured config).frame.batch.vertices = [] ∨
          (r.reconfigured config).frame.batch.vertices = old := by
        rcases vertices_reconfigured r config with hnone | hsame
        · exact Or.inl hnone
        · rw [hsame]
          exact h.pending
      simp only [Renderer.reply, Request.pass]
      generalize (Renderer.applyConfig config).run r (Logged.new device : Logged D K) = outcome
        at hrun
      cases hrun with
      | noRoom fault =>
          exact h.pending
      | unasked hsame =>
          rwa [← batch_afterConfig] at hchanged
      | made device =>
          rwa [← batch_afterConfig] at hchanged
      | refused message device =>
          exact hchanged
  | drawFrame call =>
      have hframe := settles_pass call h.inStep.one_le_capacity h.inStep.between
      obtain ⟨more, hlog, hbetween⟩ := hframe.watched (Logged.new device : Logged D K)
      have hasked : (call.pass.run r (Logged.new device)).2.2.log = more := hlog
      simp only [Renderer.reply, drawFrame_run]
      rw [hbetween.settled.pending.2, hasked]
      rcases h.pending with hnone | hsame
      · rw [hnone]
        exact foldl_leftoverAfter_nil more old
      · rw [hsame]
        exact Or.inr rfl

theorem owes_attend (requests : List (Request K × D)) (h : r.Owes old) :
    (attend requests r).2.Owes ((askedIn (attend requests r).1).foldl leftoverAfter old) := by
  induction requests generalizing r old with
  | nil =>
      exact h
  | cons first rest ih =>
      have hrest := ih (owes_reply h first.1 first.2)
      rwa [← List.foldl_append] at hrest

/-- What a device is asked to draw of lights begins with the batch, and goes on with lights that the
index has. -/
theorem begins_frame (h : r.InStep) (call : FrameCall K) (device : D) :
    ∃ own, lightCorners ((r.reply (.drawFrame call) device).1.asked.map (·.1)) <+:
        r.frame.batch.vertices ++ own ∧
      ∀ v ∈ own, ∃ e ∈ call.index.lights call.eye.map (call.viewport.worldBounds call.eye),
        v.Shows e (r.lightQuery call.eye call.viewport) r.masks := by
  obtain ⟨more, hlog, rest, hrest⟩ := call.pass.begins_asked r (Logged.new device : Logged D K)
  have hasked : (r.reply (.drawFrame call) device).1.asked = more := by
    simp only [Renderer.reply, drawFrame_run]
    exact hlog
  have hbegins : lightCorners (more.map (·.1)) <+: lightCorners (call.pass.commands r) :=
    ⟨lightCorners rest, by rw [← hrest, lightCorners_append]⟩
  rw [hasked]
  rcases lightCorners_pass h call with hnone | ⟨own, hown, hshows⟩
  · rw [hnone, List.prefix_nil] at hbegins
    rw [hbegins]
    exact ⟨[], List.nil_prefix, fun _ hv => absurd hv List.not_mem_nil⟩
  · rw [hown] at hbegins
    exact ⟨own, hbegins, hshows⟩

theorem owes_new (config : Config K) : (Renderer.new config).Owes [] :=
  ⟨(rested_new config).toInStep, Or.inl rfl⟩

end Batch

section Masks

variable [Scalar K] {D : Type} [Device D K] {r : Renderer K}

/-- What a command makes the masks that the device draws with. -/
def Command.atlas? : Command K → Option Image
  | .uploadMaskAtlas image => some image
  | _ => none

/-- A request that uploads no atlas leaves the masks as they are. -/
theorem masks_reply (hr : r.InStep) (request : Request K) (device : D)
    (hnone : ∀ asked ∈ askedFor Command.atlas? (r.reply request device).1.asked,
      asked.2 = false) :
    (r.reply request device).2.masks = r.masks := by
  cases request with
  | loadMasks capabilities prototypes load =>
      rcases reply_loadMasks r capabilities prototypes load device with
        hreply | ⟨e, asked, hreply, -⟩
      · rw [hreply] at hnone
        have hfalse := hnone _ List.mem_cons_self
        cases hfalse
      · rw [hreply]
  | applyConfig config =>
      have hrun := configRun_applyConfig hr config (Logged.new device : Logged D K)
      simp only [Renderer.reply, Request.pass]
      generalize (Renderer.applyConfig config).run r (Logged.new device : Logged D K) = outcome
        at hrun
      have hafter : (r.afterConfig config).masks = r.masks := by
        unfold Renderer.afterConfig
        split <;> rfl
      cases hrun with
      | noRoom fault =>
          rfl
      | unasked hsame =>
          exact hafter
      | made device =>
          exact hafter
      | refused message device =>
          rfl
  | drawFrame call =>
      have hframe := settles_pass call hr.one_le_capacity hr.between
      obtain ⟨more, -, hbetween⟩ := hframe.watched (Logged.new device : Logged D K)
      simp only [Renderer.reply, drawFrame_run]
      rw [hbetween.same]

theorem masks_attend (requests : List (Request K × D)) (hr : r.InStep)
    (hnone : ∀ asked ∈ askedFor Command.atlas? (askedIn (attend requests r).1), asked.2 = false) :
    (attend requests r).2.masks = r.masks := by
  induction requests generalizing r with
  | nil =>
      rfl
  | cons first rest ih =>
      obtain ⟨request, device⟩ := first
      rw [attend_cons, askedIn, List.flatMap_cons, askedFor_append, List.forall_mem_append] at hnone
      rw [attend_cons]
      exact (ih (inStep_run request hr _) hnone.2).trans (masks_reply hr request device hnone.1)

end Masks

section Load

variable [Scalar K] {D : Type} [Device D K]

/--
Loading masks in any run of requests, whatever devices refuse.  A load that fails uploads nothing
and leaves the renderer as it was, so that all other replies are what they are without it.  A load
that succeeds uploads the atlas of the masks that load.  As long as no other atlas is uploaded, this
one is the last, its masks are in use, and a frame draws corners of lights with their boxes in it;
only the corners of the batch that was asked for last may come before, if it was refused.
-/
theorem loadMasks_allOrNothing (config : Config K) (before later : List (Request K × D))
    (capabilities : Capabilities) (prototypes : List MaskPrototype) (load : String → Option Image)
    (device : D) :
    let request := Request.loadMasks capabilities prototypes load
    let start := Renderer.new config
    let r := (attend before start).2
    let reply := (r.reply request device).1
    let next := (r.reply request device).2
    let whole := attend (before ++ (request, device) :: later) start
    whole.1 = (attend before start).1 ++ reply :: (attend later next).1 ∧
    (∀ e, reply.answer = .error e →
      (∀ asked ∈ reply.asked, asked.2 = false) ∧ next = r ∧
        attend (before ++ later) start =
          ((attend before start).1 ++ (attend later next).1, whole.2)) ∧
    (reply.answer = .ok () →
      let masks := MaskAtlas.ofMasks (MaskAtlas.loadAll prototypes load)
      reply.asked = [(.uploadMaskAtlas masks.image, true)] ∧ next = { r with masks } ∧
      ((∀ asked ∈ askedFor Command.atlas? (askedIn (attend later next).1), asked.2 = false) →
        lastGranted Command.atlas? (askedIn whole.1) = some masks.image ∧
        whole.2.masks = masks ∧
        ∀ (call : FrameCall K) (frameDevice : D), ∃ pending own,
          (pending = [] ∨ pending = leftover (askedIn whole.1)) ∧
          lightCorners ((whole.2.reply (.drawFrame call) frameDevice).1.asked.map (·.1)) <+:
            pending ++ own ∧
          ∀ v ∈ own, ∃ e ∈ call.index.lights call.eye.map (call.viewport.worldBounds call.eye),
            v.Shows e (whole.2.lightQuery call.eye call.viewport) masks ∧
              v.mask = masks.uvBox e.light.mask)) := by
  intro request start r reply next whole
  have hwhole : whole = _ := attend_append before ((request, device) :: later) start
  rw [attend_cons] at hwhole
  have howes : whole.2.Owes (leftover (askedIn whole.1)) := owes_attend _ (owes_new config)
  have hr : r.InStep := (owes_attend before (owes_new config)).inStep
  refine ⟨by rw [hwhole], ?_, ?_⟩
  · intro e he
    obtain ⟨hrefused, hsame⟩ : (∀ asked ∈ reply.asked, asked.2 = false) ∧ next = r := by
      rcases reply_loadMasks r capabilities prototypes load device with
        hreply | ⟨e', asked, hreply, hasked⟩
      · rw [show reply = _ from congrArg (·.1) hreply] at he
        cases he
      · rw [show reply = _ from congrArg (·.1) hreply]
        refine ⟨?_, congrArg (·.2) hreply⟩
        rcases hasked with rfl | rfl
        · simp
        · simp
    refine ⟨hrefused, hsame, ?_⟩
    rw [attend_append, hwhole]
    change ((attend before start).1 ++ (attend later r).1, (attend later r).2) =
      ((attend before start).1 ++ (attend later next).1, (attend later next).2)
    rw [hsame]
  · intro hok masks
    obtain ⟨hasked, hnext⟩ : reply.asked = [(.uploadMaskAtlas masks.image, true)] ∧
        next = { r with masks } := by
      rcases reply_loadMasks r capabilities prototypes load device with
        hreply | ⟨e, asked, hreply, -⟩
      · exact ⟨congrArg (·.1.asked) hreply, congrArg (·.2) hreply⟩
      · rw [show reply = _ from congrArg (·.1) hreply] at hok
        cases hok
    refine ⟨hasked, hnext, ?_⟩
    intro hnone
    have hmasks : whole.2.masks = masks := by
      rw [hwhole]
      refine (masks_attend later (inStep_run request hr _) hnone).trans ?_
      exact congrArg Renderer.masks hnext
    refine ⟨?_, hmasks, ?_⟩
    · have hlog : askedIn whole.1 = (askedIn (attend before start).1 ++ reply.asked) ++
          askedIn (attend later next).1 := by
        rw [hwhole]
        simp only [askedIn, List.flatMap_append, List.flatMap_cons, List.append_assoc]
        rfl
      rw [hlog, lastGranted_append_of_refused hnone]
      refine lastGranted_of_getLast? ?_
      rw [hasked, askedFor_append]
      exact List.getLast?_concat ..
    · intro call frameDevice
      obtain ⟨own, hbegins, hshows⟩ := begins_frame howes.inStep call frameDevice
      refine ⟨_, own, howes.pending, hbegins, ?_⟩
      intro v hv
      obtain ⟨e, he, hshow⟩ := hshows v hv
      rw [hmasks] at hshow
      exact ⟨e, he, hshow, hshow.mask⟩

/-- A frame is refused its batch, and then masks are loaded. -/
def staleLamp : List (Reply Float32) × Renderer Float32 :=
  attend [(.drawFrame lampAhead, refusesTenth),
      (.loadMasks Recorder.generous Renderer.tallMasks Renderer.tallLoader,
        Recorder.new Recorder.generous)]
    (Renderer.new Config.standard)

/-- The corners of lights in the next frame. -/
def staleLampCorners : List (LightVertex Float32) :=
  lightCorners ((staleLamp.2.reply (.drawFrame lampAhead)
    (Recorder.new Recorder.generous : Recorder Float32)).1.asked.map (·.1))

/-- The next frame draws its light twice, first with the box that its mask had in the old atlas. -/
theorem staleLamp_masks :
    (staleLamp.1.map fun reply => reply.answer.isOk) = [false, true] ∧
      ∃ v ∈ staleLampCorners, (v.mask == (MaskAtlas.empty : MaskAtlas Float32).uvBox none) = true ∧
        (v.mask == staleLamp.2.masks.uvBox none) = false := by
  have hcorners : (staleLampCorners.any fun v =>
      v.mask == (MaskAtlas.empty : MaskAtlas Float32).uvBox none &&
        !(v.mask == staleLamp.2.masks.uvBox none)) = true := by
    decide +kernel
  refine ⟨by decide +kernel, ?_⟩
  obtain ⟨v, hv, hstale⟩ := List.any_eq_true.mp hcorners
  rw [Bool.and_eq_true, Bool.not_eq_true'] at hstale
  exact ⟨v, hv, hstale⟩

end Load

end Penumbra
