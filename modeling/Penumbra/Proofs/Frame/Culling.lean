import Mathlib.Data.List.Perm.Basic
import Mathlib.Data.Real.Basic
import Penumbra.Frame.Renderer
import Penumbra.Proofs.Camera
import Penumbra.Proofs.Geometry.Rectangles
import Penumbra.Proofs.Selection
import Penumbra.Proofs.World.Brightness
import Penumbra.Proofs.World.Places
import Penumbra.Proofs.World.Roster

/-!
# Nothing in view is passed over

Two tests stand between a light and a frame.  In the coordinates of a tree, the noted box of the
light is compared with a box around the view; on the map, the disc of the light is compared with
another box around the view.  Both boxes contain the whole view, and the noted box contains the
whole disc, so that a point of the view in the disc carries the light through both tests, however
the eye, the tree and the entity are turned.

A light that passes is drawn unless as many lights passed before it as there is room for, or it
casts a shadow for which there is no row.

**Results**

* `LightSelection.LeavesOut`, `LightSelection.FromReaching.exists_leavesOut`: what has no row.
* `LightEntry.ShinesOn.overlaps`, `LightEntry.ShinesOn.reachesInto`: a light passes both tests.
* `OccluderEntry.Meets.overlaps`: a wall passes its test.
* `World.exists_places_lights`, `World.exists_places_occluders`: the places that queries look at.
* `frame_loses_nothing`: the lights and walls of a frame.
-/

namespace Penumbra

/-- What passes a filter comes after those that pass before it. -/
theorem getElem?_filter_of_getElem? {α : Type} {p : α → Bool} {xs : List α} {n : Nat} {a : α}
    (hn : xs[n]? = some a) (ha : p a = true) :
    (xs.filter p)[((xs.take n).filter p).length]? = some a := by
  obtain ⟨hlt, rfl⟩ := List.getElem?_eq_some_iff.mp hn
  have hsplit : xs.filter p = (xs.take n).filter p ++ xs[n] :: (xs.drop (n + 1)).filter p := by
    conv_lhs => rw [← List.take_append_drop n xs, List.drop_eq_getElem_cons hlt]
    rw [List.filter_append, List.filter_cons_of_pos ha]
  rw [hsplit, List.getElem?_append_right (Nat.le_refl _), Nat.sub_self]
  rfl

instance ExactScalar.totallyOrdered {K : Type} [ExactScalar K] : TotallyOrdered K where
  totalLe_trans hab hbc := decide_eq_true ((of_decide_eq_true hab).trans (of_decide_eq_true hbc))
  totalLe_total a b := (le_total a b).imp decide_eq_true decide_eq_true

variable {K : Type} [ExactScalar K]

section Rows

/-- The lights that a frame leaves out of those that reach into the picture.  They cast shadows, all
rows are taken, and no light that has a row is farther. -/
structure LightSelection.LeavesOut (room : Nat) (reaching excluded : List (PointLight K))
    (s : LightSelection K) : Prop where
  perm : (s.lights.map PointLight.unnumbered ++ excluded).Perm reaching
  full : excluded ≠ [] → shadowCasterCount s.lights = room
  casters : ∀ light ∈ excluded, light.castsShadows = true
  farther : ∀ light ∈ excluded, ∀ shown ∈ s.lights, shown.castsShadows = true →
    shown.distanceSquared ≤ light.distanceSquared

omit [ExactScalar K] in
theorem shadowCasterCount_map_unnumbered (lights : List (PointLight K)) :
    shadowCasterCount (lights.map PointLight.unnumbered) = shadowCasterCount lights := by
  rw [shadowCasterCount, List.filter_map, List.length_map]
  rfl

/-- A selection leaves nothing out but lights with shadows, and those only for nearer ones. -/
theorem LightSelection.FromReaching.exists_leavesOut {query : LightQuery K}
    {reaching : List (PointLight K)} {s : LightSelection K} (h : s.FromReaching query reaching) :
    ∃ excluded, s.LeavesOut query.limits.maxShadowLights reaching excluded := by
  rcases Nat.lt_or_ge query.limits.maxShadowLights (shadowCasterCount reaching) with hlt | hle
  · obtain ⟨plain, near, far, hlights, hnearest⟩ := h.lights_of_lt hlt
    have hplain : ∀ light ∈ plain, light.castsShadows = false := by
      intro light hl
      simpa using (List.mem_filter.mp (hnearest.plain_perm.mem_iff.mp hl)).2
    refine ⟨far, ?_, ?_, ?_, ?_⟩
    · rw [hlights, List.append_assoc]
      exact (hnearest.plain_perm.append hnearest.casters_perm).trans
        (List.perm_append_comm.trans (List.filter_append_perm _ reaching))
    · intro _
      rw [← shadowCasterCount_map_unnumbered, hlights, hnearest.shadowCasterCount_eq]
    · intro light hl
      have hmem := hnearest.casters_perm.mem_iff.mp (List.mem_append_right near hl)
      exact (List.mem_filter.mp hmem).2
    · intro light hl shown hshown hcasts
      have hmem : shown.unnumbered ∈ plain ++ near := hlights ▸ List.mem_map_of_mem hshown
      rcases List.mem_append.mp hmem with hp | hnear
      · have hdark : shown.unnumbered.castsShadows = false := hplain _ hp
        rw [PointLight.unnumbered, hcasts] at hdark
        cases hdark
      · exact of_decide_eq_true (hnearest.near_le_far _ hnear light hl)
  · refine ⟨[], ?_, fun hne => absurd rfl hne, fun _ hl => ?_, fun _ hl => ?_⟩
    · rw [h.lights_of_le hle, List.append_nil]
    · cases hl
    · cases hl

theorem LightSelection.LeavesOut.mem {room : Nat} {reaching excluded : List (PointLight K)}
    {s : LightSelection K} (h : s.LeavesOut room reaching excluded) {light : PointLight K}
    (hl : light ∈ reaching) : light ∈ excluded ∨ ∃ shown ∈ s.lights, shown.unnumbered = light := by
  rcases List.mem_append.mp (h.perm.mem_iff.mpr hl) with hshown | hout
  · exact Or.inr (List.mem_map.mp hshown)
  · exact Or.inl hout

/-- The choice of lights does not fail while the box of the view is in order. -/
theorem selectLights_eq (index : SpatialIndex K) (query : LightQuery K) (masks : MaskAtlas K)
    (hbox : query.worldAabb.Ordered) :
    selectLights index query masks =
        .ok (LightSelection.ofReaching query (query.reaching index masks)) ∧
      (LightSelection.ofReaching query (query.reaching index masks)).FromReaching query
        (query.reaching index masks) := by
  have hlength : (query.reaching index masks).length ≤ query.limits.maxLights := by
    rw [LightQuery.reaching, List.length_map]
    exact List.length_take_le _ _
  have hfrom := LightSelection.ofReaching_fromReaching query (query.reaching index masks)
    (fun _ h => LightQuery.unnumbered_of_mem_reaching h) hlength
  have htake := takeReaching_eq hbox query.limits.maxLights
    (index.lights query.eye.map query.worldBounds)
  have hcheck := hfrom.check_eq
  refine ⟨?_, hfrom⟩
  simp only [LightQuery.reaching] at hcheck
  simp only [selectLights, htake, bind, Except.bind, pure, Except.pure, hcheck, LightQuery.reaching]

/-- How many lights reach into the picture before some place of an answer. -/
def LightQuery.reachingBefore (query : LightQuery K) (index : SpatialIndex K) (n : Nat) : Nat :=
  (((index.lights query.eye.map query.worldBounds).take n).filter
    (·.touches query.worldAabb)).length

/-- A light that reaches into the picture is among the lights there is room for, unless as many
reach into it before. -/
theorem LightQuery.reaching_getElem? {query : LightQuery K} {index : SpatialIndex K}
    {masks : MaskAtlas K} {n : Nat} {e : LightEntry K}
    (hn : (index.lights query.eye.map query.worldBounds)[n]? = some e)
    (he : e.touches query.worldAabb = true)
    (hroom : query.reachingBefore index n < query.limits.maxLights) :
    (query.reaching index masks)[query.reachingBefore index n]? = some (e.project query masks) := by
  rw [LightQuery.reaching, List.getElem?_map, List.getElem?_take_of_lt hroom,
    LightQuery.reachingBefore, getElem?_filter_of_getElem? hn he]
  rfl

end Rows

section Tests

/-- A light that shines on a view: its closed disc has a point of the view. -/
def LightEntry.ShinesOn (view : RotatedBox K) (e : LightEntry K) : Prop :=
  ∃ q, view.Covers q ∧ e.position.distanceSquared q ≤ e.light.radius * e.light.radius

/-- A wall with a point in an area. -/
def OccluderEntry.Meets (area : Box2 K) (e : OccluderEntry K) : Prop :=
  ∃ p, e.occluder.bounds.Covers p ∧ area.Covers (e.pose.apply p)

/-- The test in the coordinates of the tree. -/
theorem LightEntry.ShinesOn.overlaps {t : Tree K} {s : LightSlot K} {view : RotatedBox K}
    (h : (LightEntry.mk s.entity s.light (t.pose.andThen s.pose)).ShinesOn view)
    (hbounds : s.bounds = (Circle.mk (s.pose.apply s.light.offset) s.light.radius).boundingBox)
    (hradius : 0 ≤ s.light.radius) :
    s.bounds.intersects (view.transformed t.pose.inverseAffine) = true := by
  obtain ⟨q, hq, hnear⟩ := h
  exact overlaps_of_near hbounds hradius hnear (RotatedBox.contains_transformed_of_covers hq _)

/-- The test on the map. -/
theorem LightEntry.ShinesOn.reachesInto {view : RotatedBox K} {e : LightEntry K}
    (h : e.ShinesOn view) : e.reachesInto view.boundingBox = .ok true := by
  obtain ⟨q, hq, hnear⟩ := h
  rw [LightEntry.reachesInto,
    Circle.intersectsBox?_of_contains (RotatedBox.contains_boundingBox hq) hnear]

/-- The test of walls.  The common point is led into both boxes by the inverse map of the tree. -/
theorem OccluderEntry.Meets.overlaps {t : Tree K} {s : OccluderSlot K} {area : Box2 K}
    (h : (OccluderEntry.mk s.entity s.occluder (t.pose.andThen s.pose)).Meets area) :
    (s.occluder.bounds.transformed s.pose.toAffine).intersects
      (area.transformed t.pose.inverseAffine) = true := by
  obtain ⟨p, hp, harea⟩ := h
  have hwall := Box2.contains_transformed_of_covers hp s.pose.toAffine
  have hlocal := Box2.contains_transformed_of_covers harea t.pose.inverseAffine
  rw [Pose.apply_andThen, Pose.inverseAffine_apply] at hlocal
  rw [Pose.toAffine_apply] at hwall
  exact Box2.intersects_of_contains hwall hlocal

/-- The box around a view has its sides in order. -/
theorem RotatedBox.ordered_boundingBox (r : RotatedBox K) : r.boundingBox.Ordered := by
  have hcorner : r.boundingBox.contains (r.turn r.bounds.bottomLeft) = true :=
    Box2.contains_boundsOf (List.mem_map_of_mem (List.mem_cons_self ..))
  rw [Box2.contains_iff] at hcorner
  obtain ⟨⟨hleft, hright⟩, hbottom, htop⟩ := hcorner
  exact ⟨hleft.trans hright, hbottom.trans htop⟩

end Tests

section Queries

namespace World

/-- A query for lights answers each place once, and it passes over no shown light that shines on the
view. -/
theorem exists_places_lights {w : World K}
    (hnoticed : ∀ s ∈ w.lightSlots, s.inTree = s.light.addsToTree ∧
      s.bounds = (Circle.mk (s.pose.apply s.light.offset) s.light.radius).boundingBox)
    (hradius : ∀ s ∈ w.lightSlots, 0 ≤ s.light.radius) (map : MapId) (view : RotatedBox K) :
    ∃ places, Placed (w.lightAt? map) places (w.index.lights map view) ∧
      ∀ place e, w.lightAt? map place = some e → e.light.enabled = true →
        e.light.containerOccluded = false → e.ShinesOn view → place ∈ places := by
  obtain ⟨places, hplaced, hall⟩ := w.exists_placed map (·.lights)
    (fun t s => s.inTree && s.bounds.intersects (view.transformed t.pose.inverseAffine))
    fun t s => LightEntry.mk s.entity s.light (t.pose.andThen s.pose)
  refine ⟨places, hplaced, ?_⟩
  intro place e he henabled hfree hshines
  obtain ⟨t, ht, hmap, s, hs, rfl⟩ := entryAt?_eq_some.mp he
  have hslot : s ∈ w.lightSlots :=
    mem_lightSlots.mpr ⟨t, List.mem_of_getElem? ht, List.mem_of_getElem? hs⟩
  obtain ⟨hinTree, hbounds⟩ := hnoticed s hslot
  have hadds : s.light.addsToTree = true := by
    rw [Light.addsToTree, henabled, hfree]
    rfl
  refine hall place t s ht hmap hs ?_
  rw [hinTree, hadds, hshines.overlaps hbounds (hradius s hslot)]
  rfl

/-- A query for walls answers each place once, and it passes over no standing wall that meets the
area. -/
theorem exists_places_occluders (w : World K) (map : MapId) (area : Box2 K) :
    ∃ places, Placed (w.occluderAt? map) places (w.index.occluders map area) ∧
      ∀ place e, w.occluderAt? map place = some e → e.occluder.enabled = true → e.Meets area →
        place ∈ places := by
  obtain ⟨places, hplaced, hall⟩ := w.exists_placed map (·.occluders)
    (fun t s => s.occluder.enabled && (s.occluder.bounds.transformed s.pose.toAffine).intersects
      (area.transformed t.pose.inverseAffine))
    fun t s => OccluderEntry.mk s.entity s.occluder (t.pose.andThen s.pose)
  refine ⟨places, hplaced, ?_⟩
  intro place e he henabled hmeets
  obtain ⟨t, ht, hmap, s, hs, rfl⟩ := entryAt?_eq_some.mp he
  refine hall place t s ht hmap hs ?_
  rw [henabled, hmeets.overlaps]
  rfl

end World

end Queries

/-- **Nothing in view is passed over.**  In exact scalars let a world be reached by any actions,
with no update queued and no negative range, and let an eye be placed, turned and zoomed in any way.
Each light that a query answers has a place of its own on the map of the eye.  A light of this map
that is switched on, that no container keeps in and whose closed disc has a point of the view passes
both tests, and the frame has it unless as many lights passed before it as there is room for, or it
is left out for nearer lights with shadows.  Each wall of the map that stands and has a point in the
area where shadows come from is answered, and each from a place of its own.  While the names of
entities suffice, no entity is answered twice. -/
theorem frame_loses_nothing (actions : List (World.Action K))
    (hqueued : ∀ s ∈ ((World.empty : World K).run actions).1.lightSlots,
      s.light.updateQueued = false)
    (hradius : ∀ s ∈ ((World.empty : World K).run actions).1.lightSlots, 0 ≤ s.light.radius)
    (r : Renderer K) (eye : Eye K) (viewport : Viewport K) :
    let w := ((World.empty : World K).run actions).1
    let query := r.lightQuery eye viewport
    let lights := w.index.lights eye.map (viewport.worldBounds eye)
    let reaching := query.reaching w.index r.masks
    ∃ selection excluded places walls,
      selectLights w.index query r.masks = .ok selection ∧
      selection.LeavesOut r.limits.maxShadowLights reaching excluded ∧
      Placed (w.lightAt? eye.map) places lights ∧
      (∀ place e, w.lightAt? eye.map place = some e → e.light.enabled = true →
        e.light.containerOccluded = false → e.ShinesOn (viewport.worldBounds eye) →
        ∃ n, places[n]? = some place ∧ lights[n]? = some e ∧
          e.reachesInto query.worldAabb = .ok true ∧
          (r.limits.maxLights ≤ query.reachingBefore w.index n ∨
            reaching[query.reachingBefore w.index n]? = some (e.project query r.masks) ∧
              (e.project query r.masks ∈ excluded ∨
                ∃ light ∈ selection.lights, light.unnumbered = e.project query r.masks))) ∧
      Placed (w.occluderAt? eye.map) walls (w.index.occluders eye.map selection.expandedBounds) ∧
      (∀ place e, w.occluderAt? eye.map place = some e → e.occluder.enabled = true →
        e.Meets selection.expandedBounds → place ∈ walls) ∧
      (((Roster.empty : Roster K).run actions).1.spawned < 4294967295 →
        (lights.map (·.entity)).Nodup ∧
          ((w.index.occluders eye.map selection.expandedBounds).map (·.entity)).Nodup) := by
  intro w query lights reaching
  have hnoticed : ∀ s ∈ w.lightSlots, s.inTree = s.light.addsToTree ∧
      s.bounds = (Circle.mk (s.pose.apply s.light.offset) s.light.radius).boundingBox :=
    fun s hs => World.noticed_run actions s hs (hqueued s hs)
  have hbox : query.worldAabb.Ordered := RotatedBox.ordered_boundingBox _
  obtain ⟨hselected, hfrom⟩ := selectLights_eq w.index query r.masks hbox
  obtain ⟨excluded, hexcluded⟩ := hfrom.exists_leavesOut
  obtain ⟨places, hplaces, hfound⟩ := World.exists_places_lights hnoticed hradius eye.map
    (viewport.worldBounds eye)
  obtain ⟨walls, hwalls, hstanding⟩ := w.exists_places_occluders eye.map
    (LightSelection.ofReaching query reaching).expandedBounds
  refine ⟨_, excluded, places, walls, hselected, hexcluded, hplaces, ?_, hwalls, hstanding, ?_⟩
  · intro place e he henabled hfree hshines
    obtain ⟨n, hn⟩ := List.getElem?_of_mem (hfound place e he henabled hfree hshines)
    have hanswer : lights[n]? = some e := (hplaces.getElem? hn).trans he
    have hreaches : e.reachesInto query.worldAabb = .ok true := hshines.reachesInto
    have htouches : e.touches query.worldAabb = true := by
      rw [LightEntry.reachesInto_eq hbox] at hreaches
      exact Except.ok.inj hreaches
    refine ⟨n, hn, hanswer, hreaches, ?_⟩
    rcases Nat.lt_or_ge (query.reachingBefore w.index n) query.limits.maxLights with hroom | hfull
    · have hlight : reaching[query.reachingBefore w.index n]? = some (e.project query r.masks) :=
        LightQuery.reaching_getElem? hanswer htouches hroom
      exact Or.inr ⟨hlight, hexcluded.mem (List.mem_of_getElem? hlight)⟩
    · exact Or.inl hfull
  · intro hspawned
    have hconsistent := (World.matches_empty.run actions hspawned).1.consistent
    exact ⟨hplaces.light_entities_nodup hconsistent, hwalls.occluder_entities_nodup hconsistent⟩

/-- An eye sees the place where it is. -/
theorem Viewport.covers_position (v : Viewport K) (e : Eye K) :
    (v.worldBounds e).Covers e.position := by
  have hinside : ∀ a d : K, min (a - d) (a + d) ≤ a ∧ a ≤ max (a - d) (a + d) := by
    intro a d
    rcases le_total 0 d with hd | hd
    · exact ⟨min_le_of_left_le (sub_le_self a hd), le_max_of_le_right (le_add_of_nonneg_right hd)⟩
    · exact ⟨min_le_of_right_le (add_le_of_nonpos_right hd),
        le_max_of_le_left (le_sub_self_iff a |>.mpr hd)⟩
  refine ⟨e.position, ?_, ?_⟩
  · rw [bounds_worldBounds]
    exact ⟨hinside _ _, hinside _ _⟩
  · have horigin : (v.worldBounds e).origin = e.position := rfl
    ext <;> simp [RotatedBox.turn, horigin]

/-- An eye at the origin, turned against the tree of the lamp. -/
noncomputable def nearEye : Eye ℝ :=
  { Viewport.turnedEye with
    position := Vec2.zero
    rotation := -1
    zoom := ⟨1, 1⟩ }

/-- The lamp stands outside the view, and its light passes both tests. -/
theorem frame_loses_nothing_turnedLamp :
    let w := ((World.empty : World ℝ).run turnedLamp).1
    let view := Viewport.halvedPicture.worldBounds nearEye
    (∀ s ∈ w.lightSlots, s.light.updateQueued = false) ∧
      (∀ s ∈ w.lightSlots, 0 ≤ s.light.radius) ∧
      lampEntry.ShinesOn view ∧ lampEntry ∈ w.index.lights ⟨1⟩ view ∧
      lampEntry.reachesInto view.boundingBox = .ok true := by
  intro w view
  have hslots : w.lightSlots = [LightSlot.new ⟨1⟩ lampPose lamp] := rfl
  have hqueued : ∀ s ∈ w.lightSlots, s.light.updateQueued = false := by
    rw [hslots]
    simp [LightSlot.new, LightSlot.refresh]
  have hradius : ∀ s ∈ w.lightSlots, 0 ≤ s.light.radius := by
    rw [hslots]
    simp [LightSlot.new, LightSlot.refresh, lamp]
  have hshines : lampEntry.ShinesOn view := by
    refine ⟨Vec2.zero, Viewport.halvedPicture.covers_position nearEye, ?_⟩
    rw [distanceSquared_lampEntry]
    norm_num [lampEntry, lamp]
  obtain ⟨_, _, _, _, -, -, -, hfound, -⟩ := frame_loses_nothing turnedLamp hqueued hradius
    (Renderer.new Config.standard) nearEye Viewport.halvedPicture
  obtain ⟨n, -, hanswer, hreaches, -⟩ := hfound (0, 0) lampEntry rfl rfl rfl hshines
  exact ⟨hqueued, hradius, hshines, List.mem_of_getElem? hanswer, hreaches⟩

end Penumbra
