import Mathlib.Data.List.Forall2
import Penumbra.Proofs.Frame.Protocol

/-!
# Rows of the shadow atlas

A light with shadows has a row of the shadow atlas.  The row is filled with what the light sees, it
is looked up when the light is drawn, and its number plus one marks the hard shadows of the light in
the stencil.  Lights get their rows after some have been left out, and of those that have rows some
reach no pixel and are not drawn.  All the same, a light is drawn with its own row.

**Results**

* `RowUse`, `rowUses`: what commands do with the rows.
* `RowsAgree`: lights are drawn with the rows that were filled for them.
* `RowsAgree.stencilRefs`: their marks in the stencil grow, and leave the reserved ones alone.
* `rowUses_protocol`, `rowsAgree_casters`: the rows of a frame that nothing is refused.
* `frame_rows`: the rows of any frame.
-/

namespace Penumbra

variable {K : Type}

section Uses

/-- What a command does with the rows of the shadow atlas. -/
inductive RowUse (K : Type) where
  | made (sizes : TargetSizes)
  | filled (instances : List (DepthInstance K))
  | sampled (draw : ShadowCasterDraw K)

def Command.rowUse? : Command K → Option (RowUse K)
  | .resizeTargets sizes => some (.made sizes)
  | .uploadOcclusion _ instances _ => some (.filled instances)
  | .drawShadowCaster draw => some (.sampled draw)
  | _ => none

def rowUses (cs : List (Command K)) : List (RowUse K) := cs.filterMap Command.rowUse?

@[simp] theorem rowUses_nil : rowUses ([] : List (Command K)) = [] := rfl

@[simp] theorem rowUses_cons (c : Command K) (cs : List (Command K)) :
    rowUses (c :: cs) = c.rowUse?.toList ++ rowUses cs := by
  cases h : c.rowUse? <;> simp [rowUses, h]

@[simp] theorem rowUses_append (cs cs' : List (Command K)) :
    rowUses (cs ++ cs') = rowUses cs ++ rowUses cs' :=
  List.filterMap_append

@[simp] theorem rowUses_ite (p : Prop) [Decidable p] (cs : List (Command K)) :
    rowUses (if p then cs else []) = if p then rowUses cs else [] :=
  apply_ite rowUses p cs []

theorem rowUses_map_none {α : Type} {f : α → Command K} (h : ∀ x, (f x).rowUse? = none)
    (xs : List α) : rowUses (xs.map f) = [] := by
  simp [rowUses, h]

theorem rowUses_map_drawShadowCaster (draws : List (ShadowCasterDraw K)) :
    rowUses (draws.map .drawShadowCaster) = draws.map .sampled := by
  induction draws with
  | nil =>
      rfl
  | cons draw rest ih =>
      exact congrArg (RowUse.sampled draw :: ·) ih

end Uses

section Agreement

/-- The mark of hard shadows. -/
def ShadowMode.stencilRef? : ShadowMode → Option Nat
  | .hard ref => some ref
  | .soft _ => none

variable [Scalar K]

/-- A light is drawn where its row was filled from, all four corners with that row, and with its mark. -/
structure ShadowCasterDraw.Samples (draw : ShadowCasterDraw K) (softShadows : Bool)
    (instances : List (DepthInstance K)) (row : Nat) : Prop where
  found : ∃ i, instances[row]? = some i ∧
    ∀ v ∈ [draw.quad.first, draw.quad.second, draw.quad.third, draw.quad.fourth],
      v.lightPosition = i.origin ∧ v.shadowRowV = i.rowV
  mark : draw.mode.stencilRef? = if softShadows then none else some (row + 1)

/-- Lights are drawn in the order of their rows, in an atlas of some height. -/
structure RowsAgree (height : Nat) (softShadows : Bool) (instances : List (DepthInstance K))
    (draws : List (ShadowCasterDraw K)) : Prop where
  length_le : instances.length ≤ height
  instance_eq : ∀ j i, instances[j]? = some i → i.rowV = rowToV j height ∧ i.cullOrientation = 1.0
  assigned : ∃ rows : List Nat, rows.Pairwise (· < ·) ∧
    List.Forall₂ (fun row draw => draw.Samples softShadows instances row) rows draws

variable {height : Nat} {softShadows : Bool} {instances : List (DepthInstance K)}
  {draws draws' : List (ShadowCasterDraw K)}

theorem RowsAgree.of_begins (h : RowsAgree height softShadows instances draws)
    (hbegins : draws' <+: draws) : RowsAgree height softShadows instances draws' := by
  obtain ⟨rows, hrows, hassigned⟩ := h.assigned
  refine ⟨h.length_le, h.instance_eq, rows.take draws'.length, ?_, ?_⟩
  · exact hrows.sublist (List.take_sublist _ _)
  · have htake := List.forall₂_take draws'.length hassigned
    rwa [← List.prefix_iff_eq_take.mp hbegins] at htake

omit [Scalar K] in
theorem ShadowCasterDraw.Samples.row_lt {draw : ShadowCasterDraw K} {row : Nat}
    (h : draw.Samples softShadows instances row) : row < instances.length := by
  obtain ⟨i, hi, -⟩ := h.found
  exact (List.getElem?_eq_some_iff.mp hi).1

omit [Scalar K] in
theorem RowsAgree.row_lt {rows : List Nat}
    (h : List.Forall₂ (fun row draw => draw.Samples softShadows instances row) rows draws) :
    ∀ row ∈ rows, row < instances.length := by
  have hboth : List.Forall₂
      (fun row draw => row < instances.length ∧ draw.Samples softShadows instances row) rows draws :=
    h.imp fun _ _ hdraw => ⟨hdraw.row_lt, hdraw⟩
  exact ((List.forall₂_and_left _ _).mp hboth).1

/-- Marks of hard shadows grow from light to light, and none of them is reserved. -/
theorem RowsAgree.stencilRefs (h : RowsAgree height softShadows instances draws)
    (hheight : height ≤ Limits.mostShadowLights) :
    (draws.filterMap (·.mode.stencilRef?)).Pairwise (· < ·) ∧
      ∀ ref ∈ draws.filterMap (·.mode.stencilRef?), 1 ≤ ref ∧ ref ≤ 253 := by
  obtain ⟨rows, hrows, hassigned⟩ := h.assigned
  have hmarks : draws.map (·.mode.stencilRef?) =
      rows.map fun row => if softShadows then none else some (row + 1) := by
    rw [← List.forall₂_eq_eq_eq, List.forall₂_map_left_iff, List.forall₂_map_right_iff]
    exact hassigned.flip.imp fun _ _ hdraw => hdraw.mark
  have hrefs : draws.filterMap (·.mode.stencilRef?) =
      (draws.map (·.mode.stencilRef?)).filterMap id := by
    simp [List.filterMap_map]
  rw [hrefs, hmarks]
  cases softShadows with
  | true =>
      simp
  | false =>
      have hsome : (rows.map fun row => if false = true then none else some (row + 1)).filterMap id =
          rows.map (· + 1) := by
        simp [List.filterMap_map]
      rw [hsome]
      constructor
      · exact hrows.map _ fun a b hab => Nat.succ_lt_succ hab
      · intro ref href
        obtain ⟨row, hrow, rfl⟩ := List.mem_map.mp href
        have hlt := RowsAgree.row_lt hassigned row hrow
        have hlength := h.length_le
        rw [Limits.mostShadowLights] at hheight
        omega

end Agreement

section Selection

variable [Scalar K]

omit [Scalar K] in
theorem forall₂_filterMap {α β : Type} {R : α → β → Prop} {f : α → Option β} {xs : List α}
    (h : ∀ x ∈ xs, ∀ y, f x = some y → R x y) :
    List.Forall₂ R (xs.filter fun x => (f x).isSome) (xs.filterMap f) := by
  induction xs with
  | nil =>
      exact .nil
  | cons x rest ih =>
      have hrest := ih fun x' hx' => h x' (List.mem_cons_of_mem _ hx')
      cases hx : f x with
      | none =>
          simpa [List.filterMap_cons, hx] using hrest
      | some y =>
          simpa [List.filterMap_cons, hx] using ⟨h x (List.mem_cons_self ..) y hx, hrest⟩

/-- Lights are numbered by their rows. -/
def Numbered (casters : List (PointLight K)) : Prop :=
  casters.map (·.shadowRow) = List.range casters.length

omit [Scalar K] in
theorem Numbered.shadowRow_eq {casters : List (PointLight K)} (h : Numbered casters) {j : Nat}
    {light : PointLight K} (hj : casters[j]? = some light) : light.shadowRow = j := by
  obtain ⟨hlt, rfl⟩ := List.getElem?_eq_some_iff.mp hj
  have hrow := congrArg (·[j]?) h
  simpa [hlt] using hrow

/-- All corners of the quad of a light carry its position and its row. -/
theorem LightFrame.corners_of_lightQuad? {frame : LightFrame K} {light : PointLight K}
    {shadowRowV : K} {quad : LightQuad K} {scissor : ScissorRect}
    (h : frame.lightQuad? light shadowRowV = some (quad, scissor)) :
    ∀ v ∈ [quad.first, quad.second, quad.third, quad.fourth],
      v.lightPosition = light.position ∧ v.shadowRowV = shadowRowV := by
  unfold lightQuad? at h
  simp only at h
  split at h
  · cases h
  · cases h
    simp [quadOf, LightVertex.ofLight]

theorem numbered_ofReaching (query : LightQuery K) (reaching : List (PointLight K)) :
    Numbered ((LightSelection.ofReaching query reaching).lights.filter (·.castsShadows)) := by
  have hrows := assignRows_rows 0 (keepNearest query.limits.maxShadowLights reaching)
  have hlength := congrArg List.length hrows
  rw [List.length_map, List.length_range'] at hlength
  rw [Numbered, List.range_eq_range', show (LightSelection.ofReaching query reaching).lights =
    assignRows 0 (keepNearest query.limits.maxShadowLights reaching) from rfl, hlength, hrows]

/-- What the rows of lights are filled from. -/
def rowInstances (height : Nat) (casters : List (PointLight K)) : List (DepthInstance K) :=
  casters.map fun light => ⟨light.position, rowToV light.shadowRow height, 1.0⟩

/-- A light with a row is drawn with it, as long as there are no more rows than marks. -/
theorem samples_of_casterDraw? {c : Composition K} {floatTargets : Bool} {frame : LightFrame K}
    {casters : List (PointLight K)} (h : Numbered casters)
    (hlength : casters.length ≤ Limits.mostShadowLights) {light : PointLight K}
    (hlight : light ∈ casters) {draw : ShadowCasterDraw K}
    (hdraw : casterDraw? c floatTargets frame light = some draw) :
    draw.Samples c.softShadows (rowInstances c.shadowRows casters) light.shadowRow := by
  obtain ⟨found, hquad, rfl⟩ := Option.map_eq_some_iff.mp hdraw
  obtain ⟨j, hj⟩ := List.mem_iff_getElem?.mp hlight
  have hrow := h.shadowRow_eq hj
  have hlt : j < casters.length := (List.getElem?_eq_some_iff.mp hj).1
  constructor
  · refine ⟨⟨light.position, rowToV light.shadowRow c.shadowRows, 1.0⟩, ?_, ?_⟩
    · rw [rowInstances, List.getElem?_map, hrow, hj, Option.map_some, hrow]
    · exact LightFrame.corners_of_lightQuad? hquad
  · cases c.softShadows with
    | true =>
        rfl
    | false =>
        have hmark : stencilRef light = light.shadowRow + 1 := by
          rw [Limits.mostShadowLights] at hlength
          rw [stencilRef, deviceWord]
          omega
        exact congrArg some hmark

/-- Lights with rows are drawn in the order of the rows, and those between them are left out. -/
theorem rowsAgree_casterDraws {c : Composition K} {floatTargets : Bool} {frame : LightFrame K}
    {casters : List (PointLight K)} (h : Numbered casters)
    (hlength : casters.length ≤ Limits.mostShadowLights) (hrows : casters.length ≤ c.shadowRows) :
    RowsAgree c.shadowRows c.softShadows (rowInstances c.shadowRows casters)
      (casterDraws c floatTargets frame casters) := by
  constructor
  · rwa [rowInstances, List.length_map]
  · intro j i hi
    rw [rowInstances, List.getElem?_map, Option.map_eq_some_iff] at hi
    obtain ⟨light, hlight, rfl⟩ := hi
    rw [h.shadowRow_eq hlight]
    exact ⟨rfl, rfl⟩
  · let drawn := casters.filter fun light => (casterDraw? c floatTargets frame light).isSome
    refine ⟨drawn.map (·.shadowRow), ?_, ?_⟩
    · have hsublist : (drawn.map (·.shadowRow)).Sublist (List.range casters.length) := by
        rw [← h]
        exact List.filter_sublist.map _
      exact List.pairwise_lt_range.sublist hsublist
    · rw [List.forall₂_map_left_iff]
      exact forall₂_filterMap fun light hlight draw hdraw =>
        samples_of_casterDraw? h hlength hlight hdraw

end Selection

section Frame

variable [Scalar K] {call : FrameCall K} {r : Renderer K} {maxOccluders : Nat}
  {selection : LightSelection K} {geometry : OcclusionGeometry K}

/-- A frame fills the rows once, and then draws its lights with them. -/
theorem rowUses_protocol (call : FrameCall K) (r : Renderer K) (geometry : OcclusionGeometry K)
    (instances : List (DepthInstance K)) (batches : List (List (LightVertex K) × List UInt16))
    (casters : List (ShadowCasterDraw K)) :
    rowUses (call.protocol r geometry instances batches casters) =
      .filled instances :: (if r.config.drawLighting then casters else []).map .sampled := by
  have hlight : rowUses (call.lightProtocol r geometry.occluderCount batches casters) =
      casters.map .sampled := by
    have hbatches := rowUses_map_none (K := K) (f := fun batch => .drawLightBatch batch.1 batch.2)
      (fun _ => rfl) batches
    have hblurs : ∀ passes : List (BlurPass K), rowUses (passes.map .blur) = [] :=
      rowUses_map_none fun _ => rfl
    simp [FrameCall.lightProtocol, Command.rowUse?, hbatches, hblurs, rowUses_map_drawShadowCaster]
  simp only [FrameCall.protocol, bothSides, rowUses_append, rowUses_ite, hlight]
  cases r.config.drawLighting <;> simp [Command.rowUse?]

theorem Renderer.InStep.shadowRows_le (h : r.InStep) :
    r.limits.shadowRows ≤ Limits.mostShadowLights := by
  exact Nat.max_le.mpr ⟨h.maxShadowLights_le, by decide⟩

/-- The lights of a frame are drawn with the rows of its selection. -/
theorem rowsAgree_casters (hr : r.InStep)
    (h : call.scene r maxOccluders = .ok (selection, geometry)) :
    RowsAgree r.limits.shadowRows r.config.softShadows selection.instances
      (call.casters r selection geometry) := by
  obtain ⟨hselection, -⟩ := scene_inv r call h
  obtain ⟨reaching, -, hreaching, -⟩ := selectLights_inv hselection
  have hfound := found_of_scene h
  let casters := selection.lights.filter (·.castsShadows)
  have hnumbered : Numbered casters := by
    simp only [casters]
    rw [hreaching]
    exact numbered_ofReaching _ reaching
  have hinstances : selection.instances = rowInstances r.limits.shadowRows casters := by
    simp only [casters]
    rw [hreaching]
    rfl
  have hlength : casters.length ≤ r.limits.maxShadowLights := by
    have hcount := hfound.instances_length
    rw [hinstances, rowInstances, List.length_map] at hcount
    exact hcount ▸ hfound.shadowCount_le
  have hheight : casters.length ≤ r.limits.shadowRows :=
    Nat.le_trans hlength (Nat.le_max_left _ _)
  rw [hinstances]
  exact rowsAgree_casterDraws (c := call.composition r geometry) hnumbered
    (Nat.le_trans hheight hr.shadowRows_le) hheight

theorem rowUses_resizeCommands (call : FrameCall K) (r : Renderer K) (there : Option TargetSizes) :
    rowUses (call.resizeCommands r there) = [] ∨
      rowUses (call.resizeCommands r there) = [.made (call.sizes r)] := by
  unfold FrameCall.resizeCommands
  split
  · exact Or.inl rfl
  · exact Or.inr rfl

/-- A frame has made textures that fit, if it has to, before it does anything else with the rows. -/
theorem rowUses_pass (hr : r.InStep) (call : FrameCall K) :
    rowUses (call.pass.commands r) = rowUses (call.resizeCommands r r.frame.targetSizes) ∨
      rowUses (call.pass.commands r) = [] ∨
      ∃ selection geometry, call.isActive r = true ∧
        call.scene r r.frame.geometry.maxOccluders = .ok (selection, geometry) ∧
        rowUses (call.pass.commands r) = rowUses (call.resizeCommands r r.frame.targetSizes) ++
          .filled selection.instances ::
            (if r.config.drawLighting then call.casters r selection geometry else []).map
              .sampled := by
  rcases pass_commands hr call with hnone | hbegun | ⟨selection, geometry, hactive, hscene, hall⟩
  · rw [hnone]
    exact Or.inr (Or.inl rfl)
  · rw [hbegun]
    exact Or.inl (by simp [Command.rowUse?])
  · rw [hall, rowUses_append, rowUses_protocol]
    exact Or.inr (Or.inr ⟨selection, geometry, hactive, hscene, rfl⟩)

end Frame

section Run

/-- What begins a list with something in its middle either ends before that or goes on after it. -/
theorem prefix_append_cons {α : Type} {xs ys zs : List α} {y : α} (h : xs <+: ys ++ y :: zs) :
    xs <+: ys ∨ ∃ zs', zs' <+: zs ∧ xs = ys ++ y :: zs' := by
  rcases List.prefix_or_prefix_of_prefix h (List.prefix_append ys _) with hshort | ⟨rest, rfl⟩
  · exact Or.inl hshort
  · rw [List.prefix_append_right_inj] at h
    cases rest with
    | nil =>
        exact Or.inl (by simp)
    | cons x rest =>
        obtain ⟨rfl, hrest⟩ := List.cons_prefix_cons.mp h
        exact Or.inr ⟨rest, hrest, rfl⟩

variable [Scalar K] {D D' : Type} [Device D K] [Device D' K] {config : Config K}
  {requests : List (Request K)} {device d : D} {answers : List (Except Failure Unit)}
  {r : Renderer K}

theorem made_of_begins {call : FrameCall K} {there : Option TargetSizes} {uses : List (RowUse K)}
    (h : uses <+: rowUses (call.resizeCommands r there)) :
    uses = [] ∨ uses = [.made (call.sizes r)] := by
  rcases rowUses_resizeCommands call r there with hnone | hmade
  · rw [hnone] at h
    exact Or.inl (List.prefix_nil.mp h)
  · rw [hmade, List.prefix_cons_iff] at h
    rcases h with rfl | ⟨rest, rfl, hrest⟩
    · exact Or.inl rfl
    · exact Or.inr (by rw [List.prefix_nil.mp hrest])

theorem filled_not_mem_of_begins {call : FrameCall K} {there : Option TargetSizes}
    {cs : List (Command K)} (h : cs <+: call.resizeCommands r there)
    (instances : List (DepthInstance K)) : .filled instances ∉ rowUses cs := by
  intro hmem
  have hresize : .filled instances ∈ rowUses (call.resizeCommands r there) :=
    (h.filterMap Command.rowUse?).subset hmem
  rcases rowUses_resizeCommands call r there with hnone | hmade
  · simp [hnone] at hresize
  · simp [hmade] at hresize

/-- A frame that has filled the rows has textures that fit. -/
theorem targetSizes_of_filled (hr : r.InStep) {call : FrameCall K} (hactive : call.isActive r = true)
    {selection : LightSelection K} {geometry : OcclusionGeometry K}
    (hscene : call.scene r r.frame.geometry.maxOccluders = .ok (selection, geometry)) (other : D')
    {instances : List (DepthInstance K)}
    (hfilled : .filled instances ∈
      rowUses (accepted (call.pass.run r (Logged.new other : Logged D' K)).2.2.log)) :
    (call.pass.run r (Logged.new other : Logged D' K)).2.1.frame.targetSizes =
      some (call.sizes r) := by
  rcases call.pass.run_accepted r (Logged.new other : Logged D' K) with
    ⟨-, hstate, -⟩ | ⟨done, c, left, later, message, hdone, -, hstate, hlog⟩
  · obtain ⟨-, last, houtcome⟩ := pass_of_scene hr hactive hscene
    rw [hstate, Pass.ending, houtcome]
    exact targetSizes_of_outcome hr hactive houtcome
  · rw [hlog, accepted_new, List.nil_append] at hfilled
    obtain ⟨rest, hsteps, hrest⟩ := steps_of_active hr hactive
    rw [hsteps] at hdone
    rw [hstate]
    rcases List.append_eq_append_iff.mp hdone with ⟨more, rfl, htail⟩ | ⟨more, hshort, htail⟩
    · exact hrest (c, left) (by rw [htail]; simp)
    · have hbegins : done.map (·.1) <+: call.resizeCommands r r.frame.targetSizes := by
        have hcommands := congrArg (List.map (·.1)) hshort
        rw [map_fst_map, List.map_append] at hcommands
        exact ⟨_, hcommands.symm⟩
      exact absurd hfilled (filled_not_mem_of_begins hbegins instances)

/-- The rows of a frame of any session, on any device, up to a command that is refused.  The frame
makes textures at most once, with as many rows as there are shadow maps at most.  Then it fills the
rows, if it comes to that, and its textures fit; the lights with shadows that it has drawn by then
agree with their rows, and their marks grow without a reserved one. -/
theorem frame_rows (h : session config requests device = (answers, some r, d))
    (call : FrameCall K) (other : D') :
    let frame := call.pass.run r (Logged.new other : Logged D' K)
    let height := r.limits.shadowRows
    (call.sizes r).shadowAtlas.height = height ∧
    ∃ made, (made = [] ∨ made = [.made (call.sizes r)]) ∧
      (rowUses (accepted frame.2.2.log) = made ∨
        ∃ instances draws,
          rowUses (accepted frame.2.2.log) = made ++ .filled instances :: draws.map .sampled ∧
          frame.2.1.frame.targetSizes = some (call.sizes r) ∧
          RowsAgree height r.config.softShadows instances draws ∧
          (draws.filterMap (·.mode.stencilRef?)).Pairwise (· < ·) ∧
          ∀ ref ∈ draws.filterMap (·.mode.stencilRef?), 1 ≤ ref ∧ ref ≤ 253) := by
  intro frame height
  have hr := inStep_session h
  refine ⟨rfl, ?_⟩
  obtain ⟨cs, hcs, hlog⟩ := call.pass.accepted_run r (Logged.new other : Logged D' K)
  have haccepted : accepted frame.2.2.log = cs := by
    rw [hlog, accepted_new, List.nil_append]
  have huses : rowUses cs <+: rowUses (call.pass.commands r) := hcs.filterMap Command.rowUse?
  rw [haccepted]
  rcases rowUses_pass hr call with hshort | hnone | ⟨selection, geometry, hactive, hscene, hall⟩
  · rw [hshort] at huses
    exact ⟨rowUses cs, made_of_begins huses, Or.inl rfl⟩
  · rw [hnone] at huses
    exact ⟨[], Or.inl rfl, Or.inl (List.prefix_nil.mp huses)⟩
  · rw [hall] at huses
    rcases prefix_append_cons huses with hshort | ⟨drawn, hdrawn, hfilled⟩
    · exact ⟨rowUses cs, made_of_begins hshort, Or.inl rfl⟩
    · obtain ⟨draws, hdraws, rfl⟩ := List.prefix_map_iff.mp hdrawn
      have hcasters : draws <+: call.casters r selection geometry := by
        cases hlit : r.config.drawLighting with
        | false =>
            rw [hlit] at hdraws
            rw [List.prefix_nil.mp hdraws]
            exact List.nil_prefix
        | true =>
            rwa [hlit] at hdraws
      have hagree := (rowsAgree_casters hr hscene).of_begins hcasters
      have hheight : height ≤ Limits.mostShadowLights := hr.shadowRows_le
      have hmem : .filled selection.instances ∈ rowUses (accepted frame.2.2.log) := by
        rw [haccepted, hfilled]
        simp
      have hsized := targetSizes_of_filled hr hactive hscene other hmem
      exact ⟨_, made_of_begins (List.prefix_refl _), Or.inr ⟨selection.instances, draws, hfilled,
        hsized, hagree, hagree.stencilRefs hheight⟩⟩

/-- A world of two lights with shadows. -/
def twoCasters : World Float32 :=
  ((World.empty : World Float32).run
    [.addTree ⟨1⟩ Pose.identity,
      .spawnLight ⟨0⟩ (Pose.ofPosition ⟨2.0, 0.0⟩) Light.standard,
      .spawnLight ⟨0⟩ Pose.identity Light.standard]).1

def twoCastersView : FrameCall Float32 := { twoLightsView with index := twoCasters.index }

/-- A session that turns to hard shadows. -/
def hardened : List (Except Failure Unit) × Option (Renderer Float32) × Recorder Float32 :=
  session Config.standard [.applyConfig { Config.standard with softShadows := false }]
    (Recorder.new Recorder.generous)

def hardenedRenderer : Renderer Float32 := hardened.2.1.getD (Renderer.new Config.standard)

theorem frame_rows_twoCasters :
    hardened = (hardened.1, some hardenedRenderer, hardened.2.2) ∧
      ∃ made instances draws,
        rowUses (accepted (twoCastersView.pass.run hardenedRenderer
          (Logged.new hardened.2.2 : Logged (Recorder Float32) Float32)).2.2.log) =
          made ++ .filled instances :: draws.map .sampled ∧
        2 ≤ draws.length ∧ RowsAgree 128 false instances draws := by
  have hvalues : hardened.2.1.isSome = true ∧ hardenedRenderer.limits.shadowRows = 128 ∧
      hardenedRenderer.config.softShadows = false ∧
      (rowUses (accepted (twoCastersView.pass.run hardenedRenderer
        (Logged.new hardened.2.2 : Logged (Recorder Float32) Float32)).2.2.log)).length = 4 := by
    decide +kernel
  obtain ⟨hsome, hheight, hhard, hlength⟩ := hvalues
  have hsession : hardened = (hardened.1, some hardenedRenderer, hardened.2.2) :=
    eq_of_isSome hsome _
  obtain ⟨-, made, hmade, huses⟩ := frame_rows hsession twoCastersView hardened.2.2
  have hshort : made.length ≤ 1 := by
    rcases hmade with rfl | rfl <;> simp
  rcases huses with hnone | ⟨instances, draws, hfilled, -, hagree, -, -⟩
  · rw [hnone] at hlength
    omega
  · rw [hheight, hhard] at hagree
    refine ⟨hsession, made, instances, draws, hfilled, ?_, hagree⟩
    rw [hfilled, List.length_append, List.length_cons, List.length_map] at hlength
    omega

end Run

end Penumbra
