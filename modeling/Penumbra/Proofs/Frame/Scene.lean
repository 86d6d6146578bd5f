import Penumbra.Proofs.Frame.Session
import Penumbra.Proofs.Frame.WallFaces
import Penumbra.Proofs.World.Sight

/-!
# The lights and walls of a frame

A frame has at most as many lights, shadows and walls as there is room for.  It always finds them,
unless the view is nowhere and the index has lights for it all the same; a world never has.

**Results**

* `FrameCall.Answered`, `World.answered`: the index has lights only for views that are somewhere.
* `FrameCall.Found`, `found_of_scene`: what is known of the lights and walls of a frame.
* `exists_scene`, `scene_of_not_answered`: when they are found.
* `steps_of_active`, `targetSizes_of_outcome`: from when on textures fit.
* `pass_of_inactive`, `pass_of_scene`, `pass_of_not_answered`: the frame in each case.
-/

namespace Penumbra

variable {K : Type} [Scalar K]

/-- The index has no lights for a view whose box does not have its sides in order. -/
def FrameCall.Answered (call : FrameCall K) : Prop :=
  (call.viewport.worldBounds call.eye).boundingBox.Ordered ∨
    call.index.lights call.eye.map (call.viewport.worldBounds call.eye) = []

/-- A world answers every view. -/
theorem World.answered [OrderedScalar K] (w : World K) {call : FrameCall K}
    (h : call.index = w.index) : call.Answered := by
  by_cases hbox : (call.viewport.worldBounds call.eye).boundingBox.Ordered
  · exact Or.inl hbox
  · right
    rw [h]
    exact w.lights_eq_nil_of_not_ordered call.eye.map hbox

section Lights

theorem length_takeReaching_le {box : Box2 K} {room : Nat} {entries reaching : List (LightEntry K)}
    (h : takeReaching box room entries = .ok reaching) : reaching.length ≤ room := by
  induction entries generalizing room reaching with
  | nil =>
      cases room <;> cases h <;> exact Nat.zero_le _
  | cons e rest ih =>
      cases room with
      | zero =>
          cases h
          exact Nat.le_refl _
      | succ room =>
          simp only [takeReaching, bind, Except.bind] at h
          split at h
          · cases h
          · split at h
            · split at h
              · cases h
              · next hrest =>
                  cases h
                  exact Nat.succ_le_succ (ih hrest)
            · exact ih h

theorem takeReaching_nil (box : Box2 K) (room : Nat) : takeReaching box room [] = .ok [] := by
  cases room <;> rfl

/-- The first light of an answer is compared with the box. -/
theorem takeReaching_of_not_ordered {box : Box2 K} (h : ¬box.Ordered) (room : Nat)
    (e : LightEntry K) (rest : List (LightEntry K)) :
    takeReaching box (room + 1) (e :: rest) = .error .unorderedInterval := by
  have hnone : (Circle.mk e.position e.light.radius).intersectsBox? box = none := by
    by_cases hhorizontal : box.left ≤ box.right
    · have hvertical : ¬box.bottom ≤ box.top := fun hvertical => h ⟨hhorizontal, hvertical⟩
      simp [Circle.intersectsBox?, Scalar.clamp?, hvertical]
    · simp [Circle.intersectsBox?, Scalar.clamp?, hhorizontal]
  simp [takeReaching, LightEntry.reachesInto, hnone, bind, Except.bind]

theorem eq_nil_of_not_ordered {box : Box2 K} (h : ¬box.Ordered) {room : Nat}
    {entries taken : List (LightEntry K)} (htaken : takeReaching box room entries = .ok taken) :
    taken = [] := by
  cases room with
  | zero =>
      simpa [takeReaching] using htaken.symm
  | succ room =>
      cases entries with
      | nil =>
          simpa [takeReaching] using htaken.symm
      | cons e rest =>
          rw [takeReaching_of_not_ordered h] at htaken
          cases htaken

/-- There is a shadow map for each light with shadows that is kept. -/
theorem length_instances_ofReaching [TotallyOrdered K] (query : LightQuery K)
    (reaching : List (PointLight K)) :
    (LightSelection.ofReaching query reaching).instances.length =
      (LightSelection.ofReaching query reaching).shadowCount := by
  have hcasters := shadowCasterCount_keepNearest query.limits.maxShadowLights reaching
  rw [← shadowCasterCount_assignRows 0] at hcasters
  have hinstances : (LightSelection.ofReaching query reaching).instances.length =
      shadowCasterCount (assignRows 0 (keepNearest query.limits.maxShadowLights reaching)) :=
    List.length_map _
  exact hinstances.trans hcasters

theorem check_ofReaching [TotallyOrdered K] (query : LightQuery K)
    (reaching : List (PointLight K)) : (LightSelection.ofReaching query reaching).check = .ok () := by
  simp [LightSelection.check, length_instances_ofReaching]

/-- A selection is one of the lights that were taken, and the count of its shadow maps was checked. -/
theorem exists_taken {index : SpatialIndex K} {query : LightQuery K} {masks : MaskAtlas K}
    {selection : LightSelection K} (h : selectLights index query masks = .ok selection) :
    ∃ taken, takeReaching query.worldAabb query.limits.maxLights
        (index.lights query.eye.map query.worldBounds) = .ok taken ∧
      selection = LightSelection.ofReaching query (taken.map fun e => e.project query masks) ∧
      selection.check = .ok () := by
  simp only [selectLights, bind, Except.bind] at h
  split at h
  · cases h
  · next taken htaken =>
      split at h
      · cases h
      · next hcheck =>
          cases h
          exact ⟨taken, htaken, rfl, hcheck⟩

/-- A selection is one of lights that reach into the picture, with a shadow map for each shadow. -/
theorem selectLights_inv {index : SpatialIndex K} {query : LightQuery K} {masks : MaskAtlas K}
    {selection : LightSelection K} (h : selectLights index query masks = .ok selection) :
    ∃ reaching : List (PointLight K), reaching.length ≤ query.limits.maxLights ∧
      selection = LightSelection.ofReaching query reaching ∧
      selection.instances.length = selection.shadowCount := by
  obtain ⟨taken, htaken, hselection, hcheck⟩ := exists_taken h
  refine ⟨_, ?_, hselection, ?_⟩
  · rw [List.length_map]
    exact length_takeReaching_le htaken
  · simpa [LightSelection.check] using hcheck

end Lights

section Found

variable {call : FrameCall K} {r : Renderer K} {maxOccluders : Nat} {selection : LightSelection K}
  {geometry : OcclusionGeometry K}

/-- There is room for the lights and walls of a frame, and the walls have the vertices that they
should. -/
structure FrameCall.Found (r : Renderer K) (maxOccluders : Nat) (selection : LightSelection K)
    (geometry : OcclusionGeometry K) : Prop where
  lights_le : selection.lights.length ≤ r.limits.maxLights
  instances_length : selection.instances.length = selection.shadowCount
  shadowCount_le : selection.shadowCount ≤ r.limits.maxShadowLights
  occluderCount_le : geometry.occluderCount ≤ maxOccluders
  sized : geometry.Sized

theorem found_of_scene (h : call.scene r maxOccluders = .ok (selection, geometry)) :
    FrameCall.Found r maxOccluders selection geometry := by
  obtain ⟨hselection, rfl⟩ := scene_inv r call h
  obtain ⟨reaching, hlength, hreaching, hinstances⟩ := selectLights_inv hselection
  let entries := (call.index.occluders call.eye.map selection.expandedBounds).take maxOccluders
  let shapes := entries.map fun e => e.shape call.eye
  constructor
  · rw [hreaching]
    have hrows := length_assignRows 0 (keepNearest r.limits.maxShadowLights reaching)
    exact Nat.le_trans (Nat.le_of_eq hrows) (Nat.le_trans (length_keepNearest_le _ _) hlength)
  · exact hinstances
  · rw [hreaching]
    exact Nat.min_le_right _ _
  · change shapes.length ≤ maxOccluders
    rw [List.length_map, List.length_take]
    exact Nat.min_le_left _ _
  · exact OcclusionGeometry.sized_build _ _ _ _

/-- Buffers keep their promises when they are built. -/
theorem check_build (g : OcclusionGeometry K) (index : SpatialIndex K) (eye : Eye K)
    (bounds : Box2 K) : (g.build index eye bounds).check = .ok () := by
  have hsized := g.sized_build index eye bounds
  simp [OcclusionGeometry.check, hsized.mask_length, hsized.light_le_fov]

/-- The lights and walls of a frame are found for each view that the index answers. -/
theorem exists_scene [TotallyOrdered K] (h : call.Answered) (r : Renderer K) (maxOccluders : Nat) :
    ∃ selection geometry, call.scene r maxOccluders = .ok (selection, geometry) := by
  let query := r.lightQuery call.eye call.viewport
  have htake : ∃ reaching, takeReaching query.worldAabb query.limits.maxLights
      (call.index.lights query.eye.map query.worldBounds) = .ok reaching := by
    rcases h with hbox | hnone
    · exact ⟨_, takeReaching_eq hbox _ _⟩
    · have hentries : call.index.lights query.eye.map query.worldBounds = [] := hnone
      rw [hentries]
      exact ⟨_, takeReaching_nil _ _⟩
  obtain ⟨reaching, hreaching⟩ := htake
  have hselection : selectLights call.index query r.masks =
      .ok (LightSelection.ofReaching query (reaching.map fun e => e.project query r.masks)) := by
    simp only [selectLights, hreaching, bind, Except.bind, check_ofReaching]
    rfl
  have hscene : call.scene r maxOccluders = do
      let selection ← selectLights call.index query r.masks
      let geometry :=
        (OcclusionGeometry.new maxOccluders).build call.index call.eye selection.expandedBounds
      geometry.check
      return (selection, geometry) := rfl
  rw [hscene, hselection]
  simp only [bind, Except.bind, check_build]
  exact ⟨_, _, rfl⟩

/-- For any other view there is a fault, as soon as there is room for a light. -/
theorem scene_of_not_answered (h : ¬call.Answered) (hroom : 1 ≤ r.limits.maxLights)
    (maxOccluders : Nat) : call.scene r maxOccluders = .error .unorderedInterval := by
  obtain ⟨hbox, hsome⟩ := not_or.mp h
  obtain ⟨e, rest, hentries⟩ := List.exists_cons_of_ne_nil hsome
  obtain ⟨room, hmax⟩ : ∃ room, r.limits.maxLights = room + 1 := ⟨_, (Nat.sub_add_cancel hroom).symm⟩
  have htake := takeReaching_of_not_ordered hbox room e rest
  simp only [FrameCall.scene, selectLights, Renderer.lightQuery, hentries, hmax, htake, bind,
    Except.bind]

end Found

section Cases

variable {call : FrameCall K} {r : Renderer K}

theorem pass_of_inactive (hr : r.InStep) (h : call.isActive r = false) :
    call.pass r =
      ⟨[], .ok (FrameStats.zero, { r with frame := { r.frame with stats := FrameStats.zero } })⟩ := by
  rw [pass_eq, framePass_eq r call hr.phase hr.one_le_capacity]
  simp only [h, Bool.false_eq_true, if_false]
  rfl

omit [Scalar K] in
theorem targetSizes_of_mem_script {s : FrameState K} {t : Trace K} {b : LightBatch K}
    {x : Command K × FrameState K} (h : x ∈ (s.script t b).steps) :
    x.2.targetSizes = s.targetSizes := by
  induction t generalizing s with
  | nil =>
      cases h
  | cons y rest ih =>
      rcases List.mem_cons.mp h with rfl | h
      · rfl
      · exact ih (s := s.countDraws y.1.drawCalls) h

/-- Nothing but the counters is changed before textures are made, and from then on they fit. -/
theorem steps_of_active (hr : r.InStep) (h : call.isActive r = true) :
    ∃ later, (call.pass r).steps = (call.resizeCommands r r.frame.targetSizes).map (fun c =>
        (c, { r with frame := { r.frame with stats := FrameStats.zero } })) ++ later ∧
      ∀ x ∈ later, x.2.frame.targetSizes = some (call.sizes r) := by
  rw [pass_eq, framePass_eq r call hr.phase hr.one_le_capacity]
  simp only [h, if_true, FrameCall.resizing, List.map_append, List.map_map]
  refine ⟨_, rfl, ?_⟩
  intro x hx
  obtain ⟨y, hy, rfl⟩ := List.mem_map.mp hx
  rcases List.mem_cons.mp hy with rfl | hy
  · rfl
  · unfold FrameCall.sceneScript at hy
    split at hy
    · cases hy
    · exact targetSizes_of_mem_script hy

/-- A frame that ends has textures that fit. -/
theorem targetSizes_of_outcome (hr : r.InStep) (hactive : call.isActive r = true)
    {stats : FrameStats} {last : Renderer K} (h : (call.pass r).outcome = .ok (stats, last)) :
    last.frame.targetSizes = some (call.sizes r) := by
  rw [pass_eq, framePass_eq r call hr.phase hr.one_le_capacity] at h
  simp only [hactive, if_true, FrameCall.sceneScript] at h
  cases hscene : call.scene r r.frame.geometry.maxOccluders with
  | error fault =>
      simp only [hscene] at h
      cases h
  | ok scene =>
      simp only [hscene, FrameState.script_outcome] at h
      cases h
      rfl

/-- A frame with a scene draws it and counts what it draws. -/
theorem pass_of_scene (hr : r.InStep) (h : call.isActive r = true) {selection : LightSelection K}
    {geometry : OcclusionGeometry K}
    (hscene : call.scene r r.frame.geometry.maxOccluders = .ok (selection, geometry)) :
    let commands := call.commands r selection geometry r.frame.batch
    call.pass.commands r = call.resizeCommands r r.frame.targetSizes ++ commands ∧
      ∃ r', (call.pass r).outcome =
        .ok (FrameCall.counters selection geometry commands, r') := by
  have hresult : call.result r r.frame.batch r.frame.geometry.maxOccluders =
      .ok (FrameCall.counters selection geometry (call.commands r selection geometry r.frame.batch),
        call.commands r selection geometry r.frame.batch) := by
    simp only [FrameCall.result, h, if_true, hscene]
  have hpass := pass_result r call hr.phase hr.one_le_capacity
  simp only [hresult, h, if_true] at hpass
  exact ⟨hpass.2, hpass.1⟩

/-- A frame without a scene ends after its beginning. -/
theorem pass_of_fault (hr : r.InStep) (h : call.isActive r = true) {fault : Fault}
    (hscene : call.scene r r.frame.geometry.maxOccluders = .error fault) :
    call.pass.commands r = call.resizeCommands r r.frame.targetSizes ++ [.beginFrame] ∧
      (call.pass r).outcome = .error (.fault fault) := by
  have hscript : call.sceneScript r { r.frame with
      stats := FrameStats.zero, targetSizes := some (call.sizes r) } =
      ⟨[], .error (.fault fault)⟩ := by
    rw [FrameCall.sceneScript, hscene]
  rw [Pass.commands, pass_eq, framePass_eq r call hr.phase hr.one_le_capacity]
  simp only [h, if_true, hscript]
  constructor
  · simp [FrameCall.resizing, Function.comp_def]
  · rfl

/-- A view that is nowhere, with lights all the same, has no scene. -/
theorem pass_of_not_answered (hr : r.InStep) (h : call.isActive r = true)
    (hnowhere : ¬call.Answered) :
    call.pass.commands r = call.resizeCommands r r.frame.targetSizes ++ [.beginFrame] ∧
      (call.pass r).outcome = .error (.fault .unorderedInterval) := by
  have hroom : 1 ≤ r.limits.maxLights := by
    rw [hr.limits]
    exact Nat.le_max_right _ _
  exact pass_of_fault hr h (scene_of_not_answered hnowhere hroom _)

end Cases

end Penumbra
