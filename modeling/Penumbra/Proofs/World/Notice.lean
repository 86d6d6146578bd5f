import Mathlib.Data.List.Basic
import Penumbra.Proofs.World.Action
import Penumbra.Proofs.World.Operations

/-!
# What the trees know of their lights

A tree finds a light by a box and a mark that it noted at some earlier time.  The notes of a light
without a queued update are those that a new light of the same kind at the same place would get,
whatever was done to the world before: each light of a world was in it before the last action, with
all that matters to its tree unchanged or an update queued, or its tree has just noted it.

**Results**

* `Arisen`, `arisen_perform`: where the lights of a world come from.
* `LightChange.apply_cases`: which changes queue an update.
* `LightSlot.Noticed`, `noticed_run`: notes without a queued update are right in each run.
* `updateQueued_of_flush`: a flush leaves no update queued.
-/

namespace Penumbra

/-- What a tree notes of a light is what it would note of it now, or an update is queued. -/
def LightSlot.Noticed {K : Type} [Scalar K] (s : LightSlot K) : Prop :=
  s.light.updateQueued = false →
    s.inTree = s.light.addsToTree ∧
    s.bounds = (Circle.mk (s.pose.apply s.light.offset) s.light.radius).boundingBox

/-- A change of a light leaves it as it was, or queues an update, or is none of the tree's
business. -/
theorem LightChange.apply_cases {K : Type} [Scalar K] (change : LightChange K)
    (l : Light K) :
    (change.apply l).1.updateQueued = true ∨
      ((change.apply l).1.updateQueued = l.updateQueued ∧
        (change.apply l).1.addsToTree = l.addsToTree ∧
        (change.apply l).1.offset = l.offset ∧ (change.apply l).1.radius = l.radius) := by
  cases change with
  | enabled value =>
      simp only [LightChange.apply, Light.setEnabled]
      split
      · exact Or.inr ⟨rfl, rfl, rfl, rfl⟩
      · exact Or.inl rfl
  | containerOccluded value =>
      simp only [LightChange.apply, Light.setContainerOccluded]
      split
      · exact Or.inr ⟨rfl, rfl, rfl, rfl⟩
      · exact Or.inl rfl
  | radius value =>
      simp only [LightChange.apply, Light.setRadius]
      split
      · exact Or.inr ⟨rfl, rfl, rfl, rfl⟩
      · exact Or.inl rfl
  | offset value =>
      simp only [LightChange.apply, Light.setOffset]
      split
      · exact Or.inr ⟨rfl, rfl, rfl, rfl⟩
      · exact Or.inl rfl
  | castShadows value => exact Or.inr ⟨rfl, rfl, rfl, rfl⟩
  | color value => exact Or.inr ⟨rfl, rfl, rfl, rfl⟩
  | energy value => exact Or.inr ⟨rfl, rfl, rfl, rfl⟩
  | softness value => exact Or.inr ⟨rfl, rfl, rfl, rfl⟩
  | rotation value => exact Or.inr ⟨rfl, rfl, rfl, rfl⟩
  | mask value => exact Or.inr ⟨rfl, rfl, rfl, rfl⟩

namespace World

section Lights

variable {K : Type}

def lightSlots (w : World K) : List (LightSlot K) := w.trees.flatMap (·.lights)

theorem mem_lightSlots {w : World K} {s : LightSlot K} :
    s ∈ w.lightSlots ↔ ∃ t ∈ w.trees, s ∈ t.lights :=
  List.mem_flatMap

theorem mem_modify {α : Type} {f : α → α} {xs : List α} {i : Nat} {x : α}
    (h : x ∈ xs.modify i f) : x ∈ xs ∨ ∃ y ∈ xs, x = f y := by
  obtain ⟨j, hj⟩ := List.getElem?_of_mem h
  rw [List.getElem?_modify] at hj
  obtain ⟨y, hy, hx⟩ := Option.map_eq_some_iff.mp hj
  have hmem : y ∈ xs := List.mem_of_getElem? hy
  by_cases hij : i = j
  · rw [if_pos hij] at hx
    exact Or.inr ⟨y, hmem, hx.symm⟩
  · rw [if_neg hij] at hx
    exact Or.inl (hx ▸ hmem)

theorem mem_of_mem_swapRemove {α : Type} {xs : List α} {place : Nat} {x : α}
    (h : x ∈ swapRemove xs place) : x ∈ xs := by
  cases hlast : xs.getLast? with
  | none =>
      simp [swapRemove, hlast] at h
  | some last =>
      simp only [swapRemove, hlast] at h
      rcases List.mem_or_eq_of_mem_set (List.dropLast_subset _ h) with hx | hx
      · exact hx
      · rw [hx]
        exact List.mem_of_getLast? hlast

theorem mem_lightSlots_set {w w' : World K} {i : Nat} {t' : Tree K} {s : LightSlot K}
    (hw' : w'.trees = w.trees.set i t') (h : s ∈ w'.lightSlots) :
    s ∈ w.lightSlots ∨ s ∈ t'.lights := by
  obtain ⟨t, ht, hs⟩ := mem_lightSlots.mp h
  rw [hw'] at ht
  rcases List.mem_or_eq_of_mem_set ht with ht | rfl
  · exact Or.inl (mem_lightSlots.mpr ⟨t, ht, hs⟩)
  · exact Or.inr hs

theorem mem_lightSlots_modifyTree {w : World K} {i : Nat} {g : Tree K → Tree K} {s : LightSlot K}
    (h : s ∈ (w.modifyTree i g).lightSlots) :
    s ∈ w.lightSlots ∨ ∃ t ∈ w.trees, s ∈ (g t).lights := by
  obtain ⟨t, ht, hs⟩ := mem_lightSlots.mp h
  rcases mem_modify ht with ht | ⟨t₀, ht₀, rfl⟩
  · exact Or.inl (mem_lightSlots.mpr ⟨t, ht, hs⟩)
  · exact Or.inr ⟨t₀, ht₀, hs⟩

theorem mem_lightSlots_modifyLight {w : World K} {e : EntityId} {f : LightSlot K → LightSlot K}
    {s : LightSlot K} (h : s ∈ (w.modifyLight e f).lightSlots) :
    s ∈ w.lightSlots ∨ ∃ s₀ ∈ w.lightSlots, s = f s₀ := by
  unfold modifyLight at h
  split at h
  · rcases mem_lightSlots_modifyTree h with hs | ⟨t, ht, hs⟩
    · exact Or.inl hs
    · rcases mem_modify hs with hs | ⟨s₀, hs₀, rfl⟩
      · exact Or.inl (mem_lightSlots.mpr ⟨t, ht, hs⟩)
      · exact Or.inr ⟨s₀, mem_lightSlots.mpr ⟨t, ht, hs₀⟩, rfl⟩
  · exact Or.inl h

theorem mem_lightSlots_modifyOccluder {w : World K} {e : EntityId}
    {f : OccluderSlot K → OccluderSlot K} {s : LightSlot K}
    (h : s ∈ (w.modifyOccluder e f).lightSlots) : s ∈ w.lightSlots := by
  unfold modifyOccluder at h
  split at h
  · rcases mem_lightSlots_modifyTree h with hs | ⟨t, ht, hs⟩
    · exact hs
    · exact mem_lightSlots.mpr ⟨t, ht, hs⟩
  · exact h

theorem mem_lightSlots_spawnOccluder {w : World K} {tree : TreeId} {pose : Pose K}
    {occluder : Occluder K} {s : LightSlot K}
    (h : s ∈ (w.spawnOccluder tree pose occluder).1.lightSlots) : s ∈ w.lightSlots := by
  cases ht : w.trees[tree.number]? with
  | none =>
      simpa only [spawnOccluder, ht] using h
  | some t =>
      simp only [spawnOccluder, ht] at h
      rcases mem_lightSlots_set rfl h with hs | hs
      · exact hs
      · exact mem_lightSlots.mpr ⟨t, List.mem_of_getElem? ht, hs⟩

end Lights

section Arisen

variable {K : Type} [Scalar K]

/-- Where a light comes from after something was done to a world. -/
inductive Arisen (w : World K) : LightSlot K → Prop where
  | kept {s} (h : s ∈ w.lightSlots) : Arisen w s
  | spawned (entity : EntityId) (pose : Pose K) (light : Light K) :
      Arisen w (LightSlot.new entity pose light)
  | changed {s} (h : s ∈ w.lightSlots) (change : LightChange K) :
      Arisen w { s with light := (change.apply s.light).1 }
  | moved {s} (h : s ∈ w.lightSlots) (pose : Pose K) :
      Arisen w { s with pose, light := { s.light with updateQueued := true } }
  | refreshed {s} (h : s ∈ w.lightSlots) : Arisen w s.refresh

theorem arisen_adjust {w : World K} {adjustment : Adjustment K} {s : LightSlot K}
    (h : s ∈ (w.adjust adjustment).1.lightSlots) : w.Arisen s := by
  cases adjustment with
  | change entity change =>
      simp only [adjust, changeLight] at h
      split at h
      · exact .kept h
      · rcases mem_lightSlots_modifyLight h with hs | ⟨s₀, hs₀, rfl⟩
        · exact .kept hs
        · exact .changed hs₀ change
  | move entity pose =>
      simp only [adjust, setLightPose] at h
      split at h
      · rcases mem_lightSlots_modifyLight h with hs | ⟨s₀, hs₀, rfl⟩
        · exact .kept hs
        · exact .moved hs₀ pose
      · exact .kept h

theorem mem_lightSlots_despawn {w : World K} {e : EntityId} {s : LightSlot K}
    (h : s ∈ (w.despawn e).1.lightSlots) : s ∈ w.lightSlots := by
  rcases he : w.location? e with _ | ⟨i, p⟩ | ⟨i, p⟩
  · rwa [despawn_of_unlisted he] at h
  · cases ht : w.trees[i]? with
    | none =>
        simpa [despawn, he, ht, lightSlots] using h
    | some t =>
        rw [despawn_light he ht] at h
        rcases mem_lightSlots_set rfl h with hs | hs
        · exact hs
        · exact mem_lightSlots.mpr ⟨t, List.mem_of_getElem? ht, mem_of_mem_swapRemove hs⟩
  · cases ht : w.trees[i]? with
    | none =>
        simpa [despawn, he, ht, lightSlots] using h
    | some t =>
        rw [despawn_occluder he ht] at h
        rcases mem_lightSlots_set rfl h with hs | hs
        · exact hs
        · exact mem_lightSlots.mpr ⟨t, List.mem_of_getElem? ht, hs⟩

theorem arisen_spawnLight {w : World K} {tree : TreeId} {pose : Pose K} {light : Light K}
    {s : LightSlot K} (h : s ∈ (w.spawnLight tree pose light).1.lightSlots) : w.Arisen s := by
  cases ht : w.trees[tree.number]? with
  | none =>
      simp only [spawnLight, ht] at h
      exact .kept h
  | some t =>
      simp only [spawnLight, ht] at h
      rcases mem_lightSlots_set rfl h with hs | hs
      · exact .kept hs
      · rcases List.mem_append.mp hs with hs | hs
        · exact .kept (mem_lightSlots.mpr ⟨t, List.mem_of_getElem? ht, hs⟩)
        · rw [List.mem_singleton.mp hs]
          exact .spawned _ pose light

theorem arisen_flush {w : World K} {s : LightSlot K} (h : s ∈ w.flush.1.lightSlots) :
    w.Arisen s := by
  obtain ⟨t, ht, hs⟩ := mem_lightSlots.mp h
  rw [flush_trees] at ht
  obtain ⟨t, htree, rfl⟩ := List.mem_map.mp ht
  obtain ⟨s, hslot, rfl⟩ := List.mem_map.mp hs
  have hmem : s ∈ w.lightSlots := mem_lightSlots.mpr ⟨t, htree, hslot⟩
  unfold noticed
  split
  · exact .refreshed hmem
  · exact .kept hmem

/-- No action brings forth a light in any other way. -/
theorem arisen_perform {w : World K} {action : Action K} {s : LightSlot K}
    (h : s ∈ (w.perform action).1.lightSlots) : w.Arisen s := by
  cases action with
  | addTree map pose =>
      have hs : s ∈ w.lightSlots := by
        simpa [perform, addTree, lightSlots] using h
      exact .kept hs
  | setTreePose tree pose =>
      rcases mem_lightSlots_modifyTree h with hs | ⟨t, ht, hs⟩
      · exact .kept hs
      · exact .kept (mem_lightSlots.mpr ⟨t, ht, hs⟩)
  | spawnLight tree pose light =>
      exact arisen_spawnLight h
  | spawnOccluder tree pose occluder =>
      exact .kept (mem_lightSlots_spawnOccluder h)
  | despawn entity =>
      exact .kept (mem_lightSlots_despawn h)
  | adjust adjustment =>
      exact arisen_adjust h
  | replaceOccluder entity occluder =>
      exact .kept (mem_lightSlots_modifyOccluder h)
  | setOccluderPose entity pose =>
      simp only [perform, setOccluderPose] at h
      split at h
      · exact .kept (mem_lightSlots_modifyOccluder h)
      · exact .kept h
  | flush =>
      exact arisen_flush h

end Arisen

section Noticed

variable {K : Type} [Scalar K]

theorem Arisen.noticed {w : World K} {s : LightSlot K} (h : w.Arisen s)
    (hw : ∀ s ∈ w.lightSlots, s.Noticed) : s.Noticed := by
  cases h with
  | kept h =>
      exact hw _ h
  | spawned entity pose light =>
      exact fun _ => ⟨rfl, rfl⟩
  | @changed s h change =>
      intro hqueued
      rcases LightChange.apply_cases change s.light with hset | ⟨hsame, hadds, hoffset, hradius⟩
      · rw [hset] at hqueued
        cases hqueued
      · rw [hsame] at hqueued
        obtain ⟨hinTree, hbounds⟩ := hw s h hqueued
        exact ⟨by rw [hadds, hinTree], by rw [hoffset, hradius, hbounds]⟩
  | moved h pose =>
      intro hqueued
      cases hqueued
  | refreshed h =>
      exact fun _ => ⟨rfl, rfl⟩

/-- In each run the notes of lights without a queued update are right. -/
theorem noticed_run (actions : List (Action K)) :
    ∀ s ∈ ((empty : World K).run actions).1.lightSlots, s.Noticed := by
  refine run_induction (P := fun w => ∀ s ∈ w.lightSlots, s.Noticed) ?_ actions empty ?_
  · intro w action hw s hs
    exact (arisen_perform hs).noticed hw
  · intro s hs
    cases hs

theorem updateQueued_of_flush {w : World K} {s : LightSlot K} (h : s ∈ w.flush.1.lightSlots) :
    s.light.updateQueued = false := by
  obtain ⟨t, ht, hs⟩ := mem_lightSlots.mp h
  rw [flush_trees] at ht
  obtain ⟨t, htree, rfl⟩ := List.mem_map.mp ht
  obtain ⟨s, hslot, rfl⟩ := List.mem_map.mp hs
  unfold World.noticed
  split
  · rfl
  · next hqueued => exact Bool.eq_false_iff.mpr hqueued

theorem queuedCount_flush (w : World K) : w.flush.1.queuedCount = 0 := by
  rw [queuedCount, List.length_eq_zero_iff, List.filter_eq_nil_iff]
  intro s hs
  rw [updateQueued_of_flush hs]
  exact Bool.false_ne_true

end Noticed

end World
end Penumbra
