import Mathlib.Data.List.Basic
import Penumbra.Numeric.Single
import Penumbra.Proofs.World.Notice

/-!
# Queries of a world

A query reads of a tree where it stands, and of each light the box and the mark that the tree noted.
Changes of lights pass these by until the next flush, and after a flush they are what a world would
note that is built anew.

**Results**

* `Outline`, `map_index_lights`: all that a query reads.
* `outline_adjustAll`: changes of lights do not matter to it.
* `InSlotOrder`, `trees_rebuilt`: the outlines of a world that is built anew.
* `queries_after_flush`: what both mean for queries in each run.
-/

namespace Penumbra

/-- What a query tells of a light, but for its name. -/
def LightEntry.unnamed {K : Type} (e : LightEntry K) : Light K × Pose K := (e.light, e.pose)

namespace World

section Outline

variable {K α β : Type} [Scalar K]

/-- What queries read of a tree, with something else in the place of each light. -/
structure Outline (K α : Type) where
  map : MapId
  pose : Pose K
  lights : List (α × Bool × Box2 K)

def outline (view : LightSlot K → α) (t : Tree K) : Outline K α :=
  ⟨t.map, t.pose, t.lights.map fun s => (view s, s.inTree, s.bounds)⟩

/-- What a query finds in an outline. -/
def Outline.find (o : Outline K α) (bounds : RotatedBox K) : List (Pose K × α) :=
  (o.lights.filter fun s =>
    s.2.1 && s.2.2.intersects (bounds.transformed o.pose.inverseAffine)).map fun s => (o.pose, s.1)

theorem map_treeLights (view : LightSlot K → α) {out : LightEntry K → β} (place : Pose K × α → β)
    (hout : ∀ (pose : Pose K) (s : LightSlot K),
      out ⟨s.entity, s.light, pose.andThen s.pose⟩ = place (pose, view s))
    (t : Tree K) (bounds : RotatedBox K) :
    (treeLights t bounds).map out = ((outline view t).find bounds).map place := by
  simp only [treeLights, outline, Outline.find, List.filter_map, List.map_map]
  refine List.map_congr_left ?_
  intro s _
  exact hout t.pose s

/-- A query reads no more of a world than the outlines of its trees. -/
theorem map_index_lights (view : LightSlot K → α) {out : LightEntry K → β}
    (place : Pose K × α → β)
    (hout : ∀ (pose : Pose K) (s : LightSlot K),
      out ⟨s.entity, s.light, pose.andThen s.pose⟩ = place (pose, view s))
    (w : World K) (map : MapId) (bounds : RotatedBox K) :
    (w.index.lights map bounds).map out =
      (((w.trees.map (outline view)).filter (·.map == map)).flatMap (·.find bounds)).map place := by
  simp only [index, treesOn, List.map_flatMap, List.filter_map, List.flatMap_map,
    map_treeLights view place hout]
  rfl

theorem map_modify_of_eq {γ : Type} {f : γ → γ} {view : γ → α} (hf : ∀ x, view (f x) = view x)
    (xs : List γ) (i : Nat) : (xs.modify i f).map view = xs.map view := by
  refine List.ext_getElem? ?_
  intro j
  rw [List.getElem?_map, List.getElem?_map, List.getElem?_modify]
  by_cases hij : i = j
  · simp [hij, Function.comp_def, hf]
  · simp [hij]

omit [Scalar K] in
theorem outline_modifyLight (w : World K) (e : EntityId) {f : LightSlot K → LightSlot K}
    (hf : ∀ s, (f s).entity = s.entity ∧ (f s).inTree = s.inTree ∧ (f s).bounds = s.bounds) :
    (w.modifyLight e f).trees.map (outline (·.entity)) = w.trees.map (outline (·.entity)) := by
  unfold modifyLight
  split
  · refine map_modify_of_eq ?_ _ _
    intro t
    simp only [outline]
    rw [map_modify_of_eq]
    intro s
    obtain ⟨hentity, hinTree, hbounds⟩ := hf s
    rw [hentity, hinTree, hbounds]
  · rfl

/-- Changes of lights pass the outlines by until the next flush. -/
theorem outline_adjust (w : World K) (adjustment : Adjustment K) :
    (w.adjust adjustment).1.trees.map (outline (·.entity)) =
      w.trees.map (outline (·.entity)) := by
  cases adjustment with
  | change entity change =>
      simp only [adjust, changeLight]
      split
      · rfl
      · refine outline_modifyLight w entity ?_
        exact fun _ => ⟨rfl, rfl, rfl⟩
  | move entity pose =>
      simp only [adjust, setLightPose]
      split
      · refine outline_modifyLight w entity ?_
        exact fun _ => ⟨rfl, rfl, rfl⟩
      · rfl

theorem outline_adjustAll (w : World K) (adjustments : List (Adjustment K)) :
    (w.adjustAll adjustments).trees.map (outline (·.entity)) =
      w.trees.map (outline (·.entity)) := by
  induction adjustments generalizing w with
  | nil =>
      rfl
  | cons adjustment rest ih =>
      calc ((w.adjust adjustment).1.adjustAll rest).trees.map (outline (·.entity))
          = (w.adjust adjustment).1.trees.map (outline (·.entity)) := ih _
        _ = w.trees.map (outline (·.entity)) := outline_adjust w adjustment

end Outline

section Order

variable {K : Type}

/-- The lights of a world in some order, which is that of its list for those of one tree. -/
def InSlotOrder (w : World K) (order : List (Nat × LightSlot K)) : Prop :=
  ∀ i t, w.trees[i]? = some t → (order.filter (·.1 == i)).map (·.2) = t.lights

/-- Tree by tree, those of the first one with a number. -/
def slotsFrom (first : Nat) : List (Tree K) → List (Nat × LightSlot K)
  | [] => []
  | t :: ts => t.lights.map (fun s => (first, s)) ++ slotsFrom (first + 1) ts

theorem le_of_mem_slotsFrom {ts : List (Tree K)} {first : Nat} {x : Nat × LightSlot K}
    (h : x ∈ slotsFrom first ts) : first ≤ x.1 := by
  induction ts generalizing first with
  | nil =>
      cases h
  | cons t ts ih =>
      rcases List.mem_append.mp h with hx | hx
      · obtain ⟨s, -, rfl⟩ := List.mem_map.mp hx
        exact Nat.le_refl _
      · exact Nat.le_of_succ_le (ih hx)

theorem filter_slotsFrom {ts : List (Tree K)} {i : Nat} {t : Tree K} (ht : ts[i]? = some t)
    (first : Nat) : ((slotsFrom first ts).filter (·.1 == first + i)).map (·.2) = t.lights := by
  induction ts generalizing first i with
  | nil =>
      cases ht
  | cons u ts ih =>
      rw [slotsFrom, List.filter_append, List.map_append]
      cases i with
      | zero =>
          obtain rfl : u = t := Option.some.inj ht
          have hrest : (slotsFrom (first + 1) ts).filter (·.1 == first + 0) = [] := by
            rw [List.filter_eq_nil_iff]
            intro x hx
            have hle := le_of_mem_slotsFrom hx
            have hne : x.1 ≠ first + 0 := by
              omega
            simpa using hne
          rw [hrest]
          simp [List.filter_map, Function.comp_def]
      | succ i =>
          have hskip : (u.lights.map fun s => (first, s)).filter (·.1 == first + (i + 1)) = [] := by
            simp [List.filter_map, Function.comp_def]
          have hnumber : first + (i + 1) = first + 1 + i := by
            omega
          rw [hskip, hnumber, ih ht]
          rfl

theorem inSlotOrder_slotsFrom (w : World K) : w.InSlotOrder (slotsFrom 0 w.trees) := by
  intro i t ht
  have hfilter := filter_slotsFrom ht 0
  rwa [Nat.zero_add] at hfilter

end Order

section Rebuilt

variable {K : Type} [Scalar K]

/-- All of a light but its name. -/
def unnamed (s : LightSlot K) : Light K × Pose K := (s.light, s.pose)

/-- Adds the trees of a world anew and then lights, each to the tree with a number. -/
def rebuilding (w : World K) (order : List (Nat × LightSlot K)) : List (Action K) :=
  w.trees.map (fun t => .addTree t.map t.pose) ++
    order.map fun x => .spawnLight ⟨x.1⟩ x.2.pose x.2.light

theorem trees_run_addTree (ts : List (Tree K)) (w : World K) :
    (w.run (ts.map fun t => .addTree t.map t.pose)).1.trees =
      w.trees ++ ts.map fun t => ⟨t.map, t.pose, [], []⟩ := by
  induction ts generalizing w with
  | nil =>
      simp
  | cons t ts ih =>
      rw [List.map_cons, run_cons_fst, ih]
      simp [perform, addTree]

/-- What a tree notes of a light that is spawned like another one. -/
def spawnedAs (s : LightSlot K) : (Light K × Pose K) × Bool × Box2 K :=
  let new := LightSlot.new s.entity s.pose s.light
  (unnamed new, new.inTree, new.bounds)

theorem spawnedAs_of_noticed {s : LightSlot K} (hqueued : s.light.updateQueued = false)
    (h : s.Noticed) : spawnedAs s = (unnamed s, s.inTree, s.bounds) := by
  obtain ⟨hinTree, hbounds⟩ := h hqueued
  have hlight : { s.light with updateQueued := false } = s.light := by
    rw [← hqueued]
  rw [hinTree, hbounds]
  simp only [spawnedAs, LightSlot.new, LightSlot.refresh, unnamed, LightSlot.currentBounds, hlight]

/-- The outline of a tree with more lights. -/
def Outline.extend {α : Type} (o : Outline K α) (more : List (α × Bool × Box2 K)) : Outline K α :=
  { o with lights := o.lights ++ more }

theorem outline_spawnLight (w : World K) (x : Nat × LightSlot K) (i : Nat) :
    (w.spawnLight ⟨x.1⟩ x.2.pose x.2.light).1.trees[i]?.map (outline unnamed) =
      (w.trees[i]?.map (outline unnamed)).map
        (·.extend (if x.1 = i then [spawnedAs x.2] else [])) := by
  cases ht : w.trees[x.1]? with
  | none =>
      by_cases hi : x.1 = i
      · simp [spawnLight, ht, ← hi]
      · simp [spawnLight, ht, hi, Outline.extend, Function.comp_def]
  | some t =>
      by_cases hi : x.1 = i
      · have hbound : x.1 < w.trees.length := (List.getElem?_eq_some_iff.mp ht).1
        simp [spawnLight, ← hi, hbound, outline, LightSlot.new, LightSlot.refresh, unnamed,
          LightSlot.currentBounds, Outline.extend, spawnedAs]
      · simp [spawnLight, ht, List.getElem?_set_ne hi, hi, Outline.extend, Function.comp_def]

/-- Each tree gets the lights that are meant for it, in their order. -/
theorem outline_run_spawnLight (order : List (Nat × LightSlot K)) (w : World K) (i : Nat) :
    (w.run (order.map fun x => .spawnLight ⟨x.1⟩ x.2.pose x.2.light)).1.trees[i]?.map
        (outline unnamed) =
      (w.trees[i]?.map (outline unnamed)).map
        (·.extend ((order.filter (·.1 == i)).map fun x => spawnedAs x.2)) := by
  induction order generalizing w with
  | nil =>
      simp [Outline.extend, Function.comp_def]
  | cons x rest ih =>
      have hfirst := outline_spawnLight w x i
      rw [List.map_cons, run_cons_fst, ih]
      simp only [perform, Prod.map_fst, id]
      rw [hfirst, Option.map_map]
      by_cases hi : x.1 = i
      · simp [hi, Outline.extend, Function.comp_def]
      · simp [hi, Outline.extend, Function.comp_def]

/-- A world whose notes are right is rebuilt slot by slot, but for the names. -/
theorem trees_rebuilt {w : World K} (hqueued : ∀ s ∈ w.lightSlots, s.light.updateQueued = false)
    (hw : ∀ s ∈ w.lightSlots, s.Noticed) {order : List (Nat × LightSlot K)}
    (horder : w.InSlotOrder order) :
    ((empty : World K).run (w.rebuilding order)).1.trees.map (outline unnamed) =
      w.trees.map (outline unnamed) := by
  refine List.ext_getElem? ?_
  intro i
  rw [List.getElem?_map, List.getElem?_map, rebuilding, run_append_fst, outline_run_spawnLight,
    trees_run_addTree]
  cases ht : w.trees[i]? with
  | none =>
      simp [empty, ht]
  | some t =>
      have hlights : (order.filter (·.1 == i)).map (fun x => spawnedAs x.2) =
          t.lights.map fun s => (unnamed s, s.inTree, s.bounds) := by
        calc (order.filter (·.1 == i)).map (fun x => spawnedAs x.2)
            = ((order.filter (·.1 == i)).map (·.2)).map spawnedAs := by
              rw [List.map_map]
              rfl
          _ = t.lights.map spawnedAs := by
              rw [horder i t ht]
          _ = t.lights.map fun s => (unnamed s, s.inTree, s.bounds) := by
              refine List.map_congr_left ?_
              intro s hs
              have hmem : s ∈ w.lightSlots :=
                mem_lightSlots.mpr ⟨t, List.mem_of_getElem? ht, hs⟩
              exact spawnedAs_of_noticed (hqueued s hmem) (hw s hmem)
      simp [empty, ht, hlights, outline, Outline.extend]

/-- In each run the trees know what they should of lights without a queued update.  A flush tells how
many others there are and leaves none, and queries then find what they find in a world that is built
anew, with the lights of each tree in their order.  Without a flush no changes of lights matter to
which entities a query finds. -/
theorem queries_after_flush (actions : List (Action K)) :
    let w := ((empty : World K).run actions).1
    let flushed := w.flush.1
    (∀ s ∈ w.lightSlots, s.light.updateQueued = false →
      s.inTree = s.light.addsToTree ∧
      s.bounds = (Circle.mk (s.pose.apply s.light.offset) s.light.radius).boundingBox) ∧
    w.flush.2 = w.lightSlots.countP (·.light.updateQueued) ∧
    flushed.flush.2 = 0 ∧
    (∀ order, flushed.InSlotOrder order →
      let rebuilt := ((empty : World K).run (flushed.rebuilding order)).1
      rebuilt.trees.map (outline unnamed) = flushed.trees.map (outline unnamed) ∧
      ∀ map bounds,
        (rebuilt.index.lights map bounds).map LightEntry.unnamed =
          (flushed.index.lights map bounds).map LightEntry.unnamed) ∧
    ∀ adjustments map bounds,
      ((w.adjustAll adjustments).index.lights map bounds).map (·.entity) =
        (w.index.lights map bounds).map (·.entity) := by
  intro w flushed
  have hflushed : ∀ s ∈ flushed.lightSlots, s.Noticed := by
    have hrun := noticed_run (actions ++ [.flush] : List (Action K))
    rwa [run_append_fst] at hrun
  refine ⟨noticed_run actions, ?_, queuedCount_flush w, ?_, ?_⟩
  · rw [List.countP_eq_length_filter]
    rfl
  · intro order horder rebuilt
    have houtline := trees_rebuilt (fun _ hs => updateQueued_of_flush hs) hflushed horder
    refine ⟨houtline, ?_⟩
    intro map bounds
    have hout : ∀ (pose : Pose K) (s : LightSlot K),
        LightEntry.unnamed ⟨s.entity, s.light, pose.andThen s.pose⟩ =
          ((unnamed s).1, pose.andThen (unnamed s).2) := fun _ _ => rfl
    let place : Pose K × Light K × Pose K → Light K × Pose K := fun x => (x.2.1, x.1.andThen x.2.2)
    rw [map_index_lights unnamed place hout, map_index_lights unnamed place hout, houtline]
  · intro adjustments map bounds
    rw [map_index_lights (·.entity) (·.2) (fun _ _ => rfl),
      map_index_lights (·.entity) (·.2) (fun _ _ => rfl), outline_adjustAll]

/-- Two lights of one tree, of which one moves away and the other one is switched off and on. -/
def twoChanged : List (Action Float32) :=
  [.addTree ⟨1⟩ Pose.identity,
    .spawnLight ⟨0⟩ Pose.identity Light.standard,
    .spawnLight ⟨0⟩ (Pose.ofPosition ⟨3.0, 0.0⟩) Light.standard,
    .adjust (.move ⟨1⟩ (Pose.ofPosition ⟨90.0, 0.0⟩)),
    .adjust (.change ⟨2⟩ (.enabled false)),
    .adjust (.change ⟨2⟩ (.enabled true))]

theorem queries_after_flush_twoChanged :
    let w := ((empty : World Float32).run twoChanged).1
    let flushed := w.flush.1
    let order := slotsFrom 0 flushed.trees
    let near : RotatedBox Float32 := RotatedBox.ofBox ⟨-1.0, -1.0, 1.0, 1.0⟩
    flushed.InSlotOrder order ∧
      w.flush.2 = 2 ∧
      (w.index.lights ⟨1⟩ near).map (·.entity) = [⟨1⟩, ⟨2⟩] ∧
      (flushed.index.lights ⟨1⟩ near).map (·.entity) = [⟨2⟩] ∧
      ((((empty : World Float32).run (flushed.rebuilding order)).1).index.lights ⟨1⟩ near).map
          LightEntry.unnamed =
        (flushed.index.lights ⟨1⟩ near).map LightEntry.unnamed := by
  intro w flushed order near
  have horder : flushed.InSlotOrder order := inSlotOrder_slotsFrom flushed
  have hrebuilt := ((queries_after_flush twoChanged).2.2.2.1 order horder).2 ⟨1⟩ near
  exact ⟨horder, by decide +kernel, by decide +kernel, by decide +kernel, hrebuilt⟩

end Rebuilt

end World
end Penumbra
