import Mathlib.Data.List.Basic
import Mathlib.Data.List.Perm.Basic
import Penumbra.Frame.Selection
import Penumbra.Numeric.Single

/-!
# Which lights a frame keeps

A frame keeps the first lights that reach into the picture.  Only when more of them cast shadows
than there are rows in the shadow atlas does it sort them, and then it leaves out the farthest
lights with shadows and nothing else.

The choice is described by three lists, the plain lights and the lights with shadows that are near
and far.  That the sorted list falls apart into these follows from the order alone: a light with
shadows is never sorted before a plain one.  So it does not matter which sort it is, nor how it treats
lights that are equally far away.

**Results**

* `takeReaching_eq`: the loop over the query is a filter and a `take`, and no query makes it fail
  when the sides of the box are in order.
* `nearestCasters_of_sorted`, `keepNearest_nearest`: what a full shadow atlas keeps, for any sort and
  for that of a frame.
* `selectLights_keeps_nearest`: the whole selection, its rows, its shadow maps and its counters.
-/

namespace Penumbra

/-- The order of all scalars is transitive and compares any two. -/
class TotallyOrdered (K : Type) [Scalar K] : Prop where
  totalLe_trans : ∀ {a b c : K},
    Scalar.totalLe a b = true → Scalar.totalLe b c = true → Scalar.totalLe a c = true
  totalLe_total : ∀ a b : K, Scalar.totalLe a b = true ∨ Scalar.totalLe b a = true

/-- Machine numbers are compared by an integer key, what is not a number included. -/
theorem totalLe_iff_totalKey (a b : Float32) :
    Scalar.totalLe a b = true ↔ Binary32.totalKey a ≤ Binary32.totalKey b :=
  decide_eq_true_iff

instance : TotallyOrdered Float32 where
  totalLe_trans hab hbc := by
    rw [totalLe_iff_totalKey] at *
    omega
  totalLe_total a b := by
    rw [totalLe_iff_totalKey, totalLe_iff_totalKey]
    omega

section Reaching

variable {K : Type} [Scalar K]

/-- A box whose sides are in order, so that none of them is not a number. -/
structure Box2.Ordered (b : Box2 K) : Prop where
  horizontal : b.left ≤ b.right
  vertical : b.bottom ≤ b.top

/-- Whether the circle of a light shares a point with a box. -/
def LightEntry.touches (box : Box2 K) (e : LightEntry K) : Bool :=
  (Circle.mk e.position e.light.radius).intersectsBox? box == some true

theorem Circle.intersectsBox?_isSome
    {box : Box2 K} (hbox : box.Ordered) (c : Circle K) :
    ∃ b, c.intersectsBox? box = some b := by
  simp only [Circle.intersectsBox?, Scalar.clamp?, hbox.horizontal, hbox.vertical, if_true]
  exact ⟨_, rfl⟩

theorem LightEntry.reachesInto_eq
    {box : Box2 K} (hbox : box.Ordered) (e : LightEntry K) :
    e.reachesInto box = .ok (e.touches box) := by
  obtain ⟨b, hb⟩ := Circle.intersectsBox?_isSome hbox ⟨e.position, e.light.radius⟩
  simp [LightEntry.reachesInto, LightEntry.touches, hb]

/-- Taking lights one by one is filtering them, up to the room that there is. -/
theorem takeReaching_eq
    {box : Box2 K} (hbox : box.Ordered) (room : Nat) (entries : List (LightEntry K)) :
    takeReaching box room entries = .ok ((entries.filter (·.touches box)).take room) := by
  induction entries generalizing room with
  | nil =>
      cases room <;> simp [takeReaching]
  | cons e rest ih =>
      cases room with
      | zero =>
          simp [takeReaching]
      | succ room =>
          have hhead := LightEntry.reachesInto_eq hbox e
          by_cases he : e.touches box = true
          · simp [takeReaching, hhead, he, ih, bind, Except.bind, pure, Except.pure]
          · simp [takeReaching, hhead, he, ih, bind, Except.bind]

end Reaching

section Nearest

variable {K : Type} [Scalar K]

/-- A list in which what passes a test never stands before what fails it is split by the test. -/
theorem eq_plain_append_marked {α : Type} (p : α → Bool) {R : α → α → Prop}
    (hR : ∀ a b, R a b → p a = true → p b = true) {l : List α} (hl : l.Pairwise R) :
    l = l.filter (fun a => !p a) ++ l.filter p := by
  induction l with
  | nil =>
      rfl
  | cons a l ih =>
      rw [List.pairwise_cons] at hl
      by_cases ha : p a = true
      · have hall : ∀ b ∈ l, p b = true := fun b hb => hR a b (hl.1 b hb) ha
        have hnone : l.filter (fun b => !p b) = [] := by
          rw [List.filter_eq_nil_iff]
          intro b hb
          simp [hall b hb]
        have hrest : l.filter p = l := List.filter_eq_self.mpr hall
        simp [ha, hnone, hrest]
      · simp only [ha, Bool.not_false, List.filter_cons_of_pos, Bool.false_eq_true,
          not_false_eq_true, List.filter_cons_of_neg, List.cons_append, List.cons.injEq, true_and]
        exact ih hl.2

theorem nearerFirst_trans [TotallyOrdered K] (a b c : PointLight K)
    (hab : nearerFirst a b = true) (hbc : nearerFirst b c = true) : nearerFirst a c = true := by
  simp only [nearerFirst, Bool.or_eq_true, Bool.and_eq_true, Bool.not_eq_true', beq_iff_eq] at *
  rcases hab with ⟨ha, hb⟩ | ⟨hab, hd⟩
  · rcases hbc with ⟨hb', -⟩ | ⟨hbc, -⟩
    · simp [hb] at hb'
    · exact Or.inl ⟨ha, hbc ▸ hb⟩
  · rcases hbc with ⟨hb, hc⟩ | ⟨hbc, hd'⟩
    · exact Or.inl ⟨hab ▸ hb, hc⟩
    · exact Or.inr ⟨hab.trans hbc, TotallyOrdered.totalLe_trans hd hd'⟩

theorem nearerFirst_total [TotallyOrdered K] (a b : PointLight K) :
    (nearerFirst a b || nearerFirst b a) = true := by
  have hd := TotallyOrdered.totalLe_total a.distanceSquared b.distanceSquared
  cases ha : a.castsShadows <;> cases hb : b.castsShadows <;> simp [nearerFirst, ha, hb, hd]

/-- After a light with shadows only such lights follow, and they are not nearer. -/
theorem nearerFirst_of_caster {a b : PointLight K}
    (h : nearerFirst a b = true) (ha : a.castsShadows = true) :
    b.castsShadows = true ∧ Scalar.totalLe a.distanceSquared b.distanceSquared = true := by
  simp only [nearerFirst, ha, Bool.not_true, Bool.false_and, Bool.false_or, Bool.and_eq_true,
    beq_iff_eq] at h
  exact ⟨h.1.symm, h.2⟩

/--
How the lights of a frame are chosen when too many of them cast shadows: `plain` are the lights
without shadows, `near` the lights with shadows that stay, the nearest one first, and `far` those
that are left out.
-/
structure NearestCasters (room : Nat) (reaching plain near far : List (PointLight K)) : Prop where
  plain_perm : plain.Perm (reaching.filter (!·.castsShadows))
  casters_perm : (near ++ far).Perm (reaching.filter (·.castsShadows))
  near_length : near.length = room
  near_sorted : near.Pairwise fun a b =>
    Scalar.totalLe a.distanceSquared b.distanceSquared = true
  near_le_far : ∀ a ∈ near, ∀ b ∈ far,
    Scalar.totalLe a.distanceSquared b.distanceSquared = true

theorem keepNearest_of_le {room : Nat} {lights : List (PointLight K)}
    (h : shadowCasterCount lights ≤ room) : keepNearest room lights = lights := by
  simp [keepNearest, Nat.not_lt.mpr h]

/-- However lights are sorted, what is left without the farthest ones with shadows are all plain lights
and the nearest lights with shadows. -/
theorem nearestCasters_of_sorted {room : Nat} {lights sorted : List (PointLight K)}
    (hperm : sorted.Perm lights) (hsorted : sorted.Pairwise fun a b => nearerFirst a b = true)
    (h : room < shadowCasterCount lights) :
    ∃ plain near far,
      sorted.take (lights.length - (shadowCasterCount lights - room)) = plain ++ near ∧
        NearestCasters room lights plain near far := by
  let plain := sorted.filter (!·.castsShadows)
  let casters := sorted.filter (·.castsShadows)
  have hsplit : sorted = plain ++ casters :=
    eq_plain_append_marked (·.castsShadows)
      (fun _ _ hab ha => (nearerFirst_of_caster hab ha).1) hsorted
  have hcount : casters.length = shadowCasterCount lights :=
    (hperm.filter (·.castsShadows)).length_eq
  have hlength : plain.length + casters.length = lights.length := by
    rw [← hperm.length_eq, hsplit, List.length_append]
  -- What the sort puts at the end are lights with shadows, and only those are cut off.
  have hcut : lights.length - (shadowCasterCount lights - room) = plain.length + room := by
    omega
  have hcasters : casters.Pairwise fun a b =>
      Scalar.totalLe a.distanceSquared b.distanceSquared = true := by
    have hfiltered := hsorted.filter (·.castsShadows)
    refine hfiltered.imp_of_mem ?_
    intro a b ha _ hab
    exact (nearerFirst_of_caster hab (by simpa using (List.mem_filter.mp ha).2)).2
  have hdivided : (casters.take room ++ casters.drop room).Pairwise fun a b =>
      Scalar.totalLe a.distanceSquared b.distanceSquared = true := by
    rwa [List.take_append_drop]
  rw [List.pairwise_append] at hdivided
  refine ⟨plain, casters.take room, casters.drop room, ?_, ?_⟩
  · rw [hcut, hsplit, List.take_length_add_append]
  · exact
      { plain_perm := hperm.filter _
        casters_perm := by
          rw [List.take_append_drop]
          exact hperm.filter _
        near_length := by
          rw [List.length_take]
          omega
        near_sorted := hdivided.1
        near_le_far := hdivided.2.2 }

/-- A full shadow atlas keeps all plain lights and the nearest lights with shadows. -/
theorem keepNearest_nearest [TotallyOrdered K] {room : Nat} {lights : List (PointLight K)}
    (h : room < shadowCasterCount lights) :
    ∃ plain near far, keepNearest room lights = plain ++ near ∧
      NearestCasters room lights plain near far := by
  have hperm := List.mergeSort_perm lights nearerFirst
  have hsorted := List.pairwise_mergeSort nearerFirst_trans nearerFirst_total lights
  simp only [keepNearest, h, if_true]
  exact nearestCasters_of_sorted hperm hsorted h

theorem NearestCasters.shadowCasterCount_eq
    {room : Nat} {reaching plain near far : List (PointLight K)}
    (h : NearestCasters room reaching plain near far) :
    shadowCasterCount (plain ++ near) = room := by
  have hplain : plain.filter (·.castsShadows) = [] := by
    rw [List.filter_eq_nil_iff]
    intro light hl
    have hmem := h.plain_perm.mem_iff.mp hl
    simpa using (List.mem_filter.mp hmem).2
  have hnear : near.filter (·.castsShadows) = near := by
    rw [List.filter_eq_self]
    intro light hl
    have hmem := h.casters_perm.mem_iff.mp (List.mem_append_left far hl)
    exact (List.mem_filter.mp hmem).2
  simp [shadowCasterCount, hplain, hnear, h.near_length]

theorem shadowCasterCount_keepNearest [TotallyOrdered K]
    (room : Nat) (lights : List (PointLight K)) :
    shadowCasterCount (keepNearest room lights) = min (shadowCasterCount lights) room := by
  rcases Nat.lt_or_ge room (shadowCasterCount lights) with h | h
  · obtain ⟨plain, near, far, heq, hnearest⟩ := keepNearest_nearest h
    rw [heq, hnearest.shadowCasterCount_eq]
    omega
  · rw [keepNearest_of_le h]
    omega

theorem length_keepNearest_le (room : Nat) (lights : List (PointLight K)) :
    (keepNearest room lights).length ≤ lights.length := by
  simp only [keepNearest]
  split
  · simp
  · exact Nat.le_refl _

theorem mem_of_mem_keepNearest {room : Nat} {lights : List (PointLight K)} {light : PointLight K}
    (h : light ∈ keepNearest room lights) : light ∈ lights := by
  simp only [keepNearest] at h
  split at h
  · exact List.mem_mergeSort.mp (List.mem_of_mem_take h)
  · exact h

end Nearest

section Rows

variable {K : Type}

/-- A light as it was before it got a row. -/
def PointLight.unnumbered (light : PointLight K) : PointLight K := { light with shadowRow := 0 }

theorem assignRows_map_unnumbered (row : Nat) (lights : List (PointLight K)) :
    (assignRows row lights).map PointLight.unnumbered =
      lights.map PointLight.unnumbered := by
  induction lights generalizing row with
  | nil =>
      rfl
  | cons light rest ih =>
      by_cases hl : light.castsShadows = true
      · simp [assignRows, hl, ih, PointLight.unnumbered]
      · simp [assignRows, hl, ih]

/-- Rows are given in order and without gaps, to the lights with shadows only. -/
theorem assignRows_rows (row : Nat) (lights : List (PointLight K)) :
    ((assignRows row lights).filter (·.castsShadows)).map (·.shadowRow) =
      List.range' row (shadowCasterCount lights) := by
  induction lights generalizing row with
  | nil =>
      rfl
  | cons light rest ih =>
      by_cases hl : light.castsShadows = true
      · have hcount : shadowCasterCount (light :: rest) = shadowCasterCount rest + 1 := by
          simp [shadowCasterCount, hl]
        simp [assignRows, hl, ih, hcount, List.range'_succ]
      · have hcount : shadowCasterCount (light :: rest) = shadowCasterCount rest := by
          simp [shadowCasterCount, hl]
        simp [assignRows, hl, ih, hcount]

theorem mem_of_mem_assignRows {row : Nat} {lights : List (PointLight K)} {light : PointLight K}
    (h : light ∈ assignRows row lights) (hplain : light.castsShadows = false) :
    light ∈ lights := by
  induction lights generalizing row with
  | nil =>
      exact h
  | cons first rest ih =>
      by_cases hf : first.castsShadows = true
      · simp only [assignRows, hf, if_true, List.mem_cons] at h
        rcases h with rfl | h
        · simp at hplain
        · exact List.mem_cons_of_mem _ (ih h)
      · simp only [assignRows, hf, Bool.false_eq_true, if_false, List.mem_cons] at h
        rcases h with rfl | h
        · exact List.mem_cons_self
        · exact List.mem_cons_of_mem _ (ih h)

theorem shadowCasterCount_assignRows (row : Nat) (lights : List (PointLight K)) :
    shadowCasterCount (assignRows row lights) = shadowCasterCount lights := by
  have h := congrArg List.length (assignRows_rows row lights)
  simpa [shadowCasterCount] using h

theorem length_assignRows (row : Nat) (lights : List (PointLight K)) :
    (assignRows row lights).length = lights.length := by
  have h := congrArg List.length (assignRows_map_unnumbered row lights)
  simpa using h

end Rows

section Selection

variable {K : Type} [Scalar K]

/-- The lights that a frame has room for, out of those that a query yields, in their order. -/
def LightQuery.reaching (query : LightQuery K) (index : SpatialIndex K) (masks : MaskAtlas K) :
    List (PointLight K) :=
  (((index.lights query.eye.map query.worldBounds).filter (·.touches query.worldAabb)).take
    query.limits.maxLights).map (·.project query masks)

/-- What the lights of a frame are, compared with the lights that reach into the picture. -/
structure LightSelection.FromReaching
    (query : LightQuery K) (reaching : List (PointLight K)) (s : LightSelection K) : Prop where
  lights_of_le : shadowCasterCount reaching ≤ query.limits.maxShadowLights →
    s.lights.map PointLight.unnumbered = reaching
  lights_of_lt : query.limits.maxShadowLights < shadowCasterCount reaching →
    ∃ plain near far, s.lights.map PointLight.unnumbered = plain ++ near ∧
      NearestCasters query.limits.maxShadowLights reaching plain near far
  length_le : s.lights.length ≤ query.limits.maxLights
  shadowCount_eq : s.shadowCount = shadowCasterCount s.lights
  shadowCount_le : s.shadowCount ≤ query.limits.maxShadowLights
  rows : (s.lights.filter (·.castsShadows)).map (·.shadowRow) = List.range s.shadowCount
  plain_row : ∀ light ∈ s.lights, light.castsShadows = false → light.shadowRow = 0
  instances_length : s.instances.length = s.shadowCount
  instances_origin : s.instances.map (·.origin) =
    (s.lights.filter (·.castsShadows)).map (·.position)
  addSelection_eq : ∀ stats : FrameStats, stats.addSelection s =
    { stats with
      totalLights := stats.totalLights + s.lights.length
      shadowLights := stats.shadowLights + shadowCasterCount s.lights
      droppedShadowLights := stats.droppedShadowLights +
        (shadowCasterCount reaching - shadowCasterCount s.lights) }

theorem LightQuery.unnumbered_of_mem_reaching
    {query : LightQuery K} {index : SpatialIndex K} {masks : MaskAtlas K} {light : PointLight K}
    (h : light ∈ query.reaching index masks) : light.unnumbered = light := by
  obtain ⟨e, -, rfl⟩ := List.mem_map.mp h
  rfl

theorem shadowInstances_map_origin (rows : Nat) (lights : List (PointLight K)) :
    (shadowInstances rows lights).map (·.origin) =
      (lights.filter (·.castsShadows)).map (·.position) := by
  simp [shadowInstances]

/-- The selection of lights that have no rows yet, with all that is promised of it. -/
theorem LightSelection.ofReaching_fromReaching [TotallyOrdered K]
    (query : LightQuery K) (reaching : List (PointLight K))
    (hnew : ∀ light ∈ reaching, light.unnumbered = light)
    (hlength : reaching.length ≤ query.limits.maxLights) :
    (LightSelection.ofReaching query reaching).FromReaching query reaching := by
  have hmap : ∀ lights : List (PointLight K), (∀ light ∈ lights, light ∈ reaching) →
      lights.map PointLight.unnumbered = lights := by
    intro lights hl
    exact (List.map_congr_left fun light h => hnew light (hl light h)).trans (List.map_id _)
  let room := query.limits.maxShadowLights
  let kept := keepNearest room reaching
  have hkept : (assignRows 0 kept).map PointLight.unnumbered = kept := by
    rw [assignRows_map_unnumbered]
    exact hmap kept fun light h => mem_of_mem_keepNearest h
  have hcount : shadowCasterCount (assignRows 0 kept) = min (shadowCasterCount reaching) room := by
    rw [shadowCasterCount_assignRows]
    exact shadowCasterCount_keepNearest room reaching
  exact
    { lights_of_le := by
        intro h
        exact hkept.trans (keepNearest_of_le h)
      lights_of_lt := by
        intro h
        obtain ⟨plain, near, far, heq, hnearest⟩ := keepNearest_nearest h
        exact ⟨plain, near, far, hkept.trans heq, hnearest⟩
      length_le := by
        have h := length_keepNearest_le room reaching
        have hrows := length_assignRows 0 kept
        exact Nat.le_trans (Nat.le_of_eq hrows) (Nat.le_trans h hlength)
      shadowCount_eq := hcount.symm
      shadowCount_le := Nat.min_le_right _ _
      rows := by
        have h := assignRows_rows 0 kept
        rw [← shadowCasterCount_assignRows 0 kept, hcount] at h
        exact h.trans List.range_eq_range'.symm
      plain_row := by
        intro light hl hplain
        have hmem := mem_of_mem_keepNearest (mem_of_mem_assignRows hl hplain)
        rw [← hnew light hmem]
        rfl
      instances_length := by
        have h := congrArg List.length (shadowInstances_map_origin query.limits.shadowRows
          (assignRows 0 kept))
        rw [List.length_map, List.length_map] at h
        exact h.trans hcount
      instances_origin := shadowInstances_map_origin _ _
      addSelection_eq := by
        intro stats
        have hshadow : (LightSelection.ofReaching query reaching).shadowCount =
            shadowCasterCount (LightSelection.ofReaching query reaching).lights := hcount.symm
        have hdropped : (LightSelection.ofReaching query reaching).dropped =
            shadowCasterCount reaching -
              shadowCasterCount (LightSelection.ofReaching query reaching).lights := by
          rw [← hshadow]
          change _ - room = _ - min _ room
          omega
        simp only [FrameStats.addSelection, hshadow, hdropped] }

/-- The shadow maps are counted right, whatever the lights are. -/
theorem LightSelection.FromReaching.check_eq
    {query : LightQuery K} {reaching : List (PointLight K)} {s : LightSelection K}
    (h : s.FromReaching query reaching) : s.check = .ok () := by
  simp [LightSelection.check, h.instances_length]

/--
**The lights of a frame.**  For every index and every query whose box has its sides in order, the
selection succeeds.  It keeps the first lights that reach into the picture, all of them as long as
there are enough rows, and otherwise all plain lights and the nearest lights with shadows.
-/
theorem selectLights_keeps_nearest
    (index : SpatialIndex Float32) (query : LightQuery Float32) (masks : MaskAtlas Float32)
    (hbox : query.worldAabb.Ordered) :
    ∃ s, selectLights index query masks = .ok s ∧
      s.FromReaching query (query.reaching index masks) := by
  let reaching := query.reaching index masks
  have hlength : reaching.length ≤ query.limits.maxLights := by
    simp only [reaching, LightQuery.reaching, List.length_map, List.length_take]
    omega
  have hfrom : (LightSelection.ofReaching query reaching).FromReaching query reaching :=
    LightSelection.ofReaching_fromReaching query reaching
      (fun _ h => LightQuery.unnumbered_of_mem_reaching h) hlength
  have htake := takeReaching_eq hbox query.limits.maxLights
    (index.lights query.eye.map query.worldBounds)
  refine ⟨LightSelection.ofReaching query reaching, ?_, hfrom⟩
  have hcheck := hfrom.check_eq
  simp only [selectLights, htake, bind, Except.bind, pure, Except.pure]
  simp only [reaching, LightQuery.reaching] at hcheck
  rw [hcheck]
  rfl

/-- Three lights with shadows and one without. -/
def fourLights : SpatialIndex Float32 where
  lights _ _ :=
    [⟨⟨1⟩, Light.standard, Pose.ofPosition ⟨3.0, 0.0⟩⟩,
      ⟨⟨2⟩, { Light.standard with castShadows := false }, Pose.ofPosition ⟨9.0, 0.0⟩⟩,
      ⟨⟨3⟩, Light.standard, Pose.ofPosition ⟨1.0, 0.0⟩⟩,
      ⟨⟨4⟩, Light.standard, Pose.ofPosition ⟨2.0, 0.0⟩⟩]
  occluders _ _ := []

/-- A view of the world around the origin with two rows for lights with shadows. -/
def twoRows : LightQuery Float32 where
  eye := ⟨Vec2.zero, ⟨1⟩, 0.0, Vec2.one, true, true⟩
  worldBounds := RotatedBox.ofBox ⟨-10.0, -10.0, 10.0, 10.0⟩
  worldAabb := ⟨-10.0, -10.0, 10.0, 10.0⟩
  limits := Limits.ofConfig { Config.standard with maxShadowCasters := 2 }
  shadowsEnabled := true

theorem selectLights_fourLights :
    twoRows.worldAabb.Ordered ∧
      shadowCasterCount (twoRows.reaching fourLights MaskAtlas.empty) = 3 ∧
      ∃ s, selectLights fourLights twoRows MaskAtlas.empty = .ok s ∧
        s.FromReaching twoRows (twoRows.reaching fourLights MaskAtlas.empty) :=
  have hbox : twoRows.worldAabb.Ordered := ⟨by decide, by decide⟩
  ⟨hbox, by decide +kernel, selectLights_keeps_nearest fourLights twoRows MaskAtlas.empty hbox⟩

end Selection

end Penumbra
