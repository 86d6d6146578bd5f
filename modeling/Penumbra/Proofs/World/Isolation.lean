import Penumbra.Frame.Renderer
import Penumbra.Illumination
import Penumbra.Numeric.Single
import Penumbra.Proofs.World.Action
import Penumbra.Proofs.World.Operations

/-!
# Maps are apart

The trees of all maps share one list, one directory and one sequence of names.  All the same nothing
that is done to the trees and entities of other maps can be noticed on a map before the next flush,
which takes notice of all lights at once.

An entity is on a map if a tree of the map lists it.  The directory is not asked, so that it must
lead each entity to a tree that lists it.  It does, even when names repeat.

**Results**

* `Deed`, `World.carryOutAll`: what a caller does with a world, also through a light it holds.
* `reliable_carryOutAll`: the directory of each world is reliable.
* `World.touches`, `World.spares`: whether something on a map is touched.
* `treesOn_carryOutAll`: trees of a map that is spared.
* `map_spared`: queries, light and frames of a map that is spared.
-/

namespace Penumbra
namespace World

/-- What a caller does with a world, or writes over a light of it. -/
inductive Deed (K : Type) where
  | act (action : Action K)
  | overwrite (entity : EntityId) (light : Light K)
deriving Repr, Inhabited

/-- What a deed is done to. -/
inductive Target where
  | map (map : MapId)
  | tree (tree : TreeId)
  | entity (entity : EntityId)
  | everything
deriving DecidableEq, Repr, Inhabited

section Deeds

variable {K : Type}

def Deed.target : Deed K → Target
  | .act (.addTree map _) => .map map
  | .act (.setTreePose tree _) => .tree tree
  | .act (.spawnLight tree _ _) => .tree tree
  | .act (.spawnOccluder tree _ _) => .tree tree
  | .act (.despawn entity) => .entity entity
  | .act (.adjust (.change entity _)) => .entity entity
  | .act (.adjust (.move entity _)) => .entity entity
  | .act (.replaceOccluder entity _) => .entity entity
  | .act (.setOccluderPose entity _) => .entity entity
  | .act .flush => .everything
  | .overwrite entity _ => .entity entity

end Deeds

variable {K : Type} [Scalar K]

def carryOut (w : World K) : Deed K → World K
  | .act action => (w.perform action).1
  | .overwrite entity light => w.modifyLight entity fun s => { s with light }

def carryOutAll (w : World K) (deeds : List (Deed K)) : World K := deeds.foldl carryOut w

end World

def Tree.lists {K : Type} (t : Tree K) (entity : EntityId) : Bool :=
  (t.lights.any fun s => s.entity == entity) || t.occluders.any fun s => s.entity == entity

namespace World

section Spared

variable {K : Type} [Scalar K]

/-- Whether a target is on a map. -/
def touches (w : World K) (map : MapId) : Target → Bool
  | .map other => other == map
  | .tree tree => w.trees[tree.number]?.any (·.map == map)
  | .entity entity => (w.treesOn map).any (·.lists entity)
  | .everything => true

/-- Whether no deed touches something that is on the map when it is done. -/
def spares (w : World K) (map : MapId) : List (Deed K) → Bool
  | [] => true
  | deed :: rest => !w.touches map deed.target && (w.carryOut deed).spares map rest

end Spared

section Reliable

variable {K : Type} {w : World K}

theorem reliable_empty : (empty : World K).Reliable where
  slot_of_location h := by
    simp [location?, empty] at h

theorem Reliable.modifyLight (hw : w.Reliable) (e : EntityId) {f : LightSlot K → LightSlot K}
    (hf : ∀ s, (f s).entity = s.entity) : (w.modifyLight e f).Reliable :=
  (w.modifyLight_reworked e hf).reliable hw

theorem Reliable.modifyOccluder (hw : w.Reliable) (e : EntityId)
    {f : OccluderSlot K → OccluderSlot K} (hf : ∀ s, (f s).entity = s.entity) :
    (w.modifyOccluder e f).Reliable :=
  (w.modifyOccluder_reworked e hf).reliable hw

variable [Scalar K]

theorem Reliable.spawnLight (hw : w.Reliable) (tree : TreeId) (pose : Pose K) (light : Light K) :
    (w.spawnLight tree pose light).1.Reliable := by
  cases ht : w.trees[tree.number]? with
  | none =>
      rwa [World.spawnLight, ht]
  | some t =>
      exact (spawnLight_extended ht pose light).reliable hw

theorem Reliable.spawnOccluder (hw : w.Reliable) (tree : TreeId) (pose : Pose K)
    (occluder : Occluder K) : (w.spawnOccluder tree pose occluder).1.Reliable := by
  cases ht : w.trees[tree.number]? with
  | none =>
      rwa [World.spawnOccluder, ht]
  | some t =>
      exact (spawnOccluder_extended ht pose occluder).reliable hw

theorem Reliable.despawn (hw : w.Reliable) (e : EntityId) : (w.despawn e).1.Reliable := by
  cases hl : w.location? e with
  | none =>
      rwa [despawn_of_unlisted hl]
  | some l =>
      obtain ⟨last, s, hvacated⟩ := despawn_vacated hw hl
      exact hvacated.reliable hw

theorem Reliable.adjust (hw : w.Reliable) (adjustment : Adjustment K) :
    (w.adjust adjustment).1.Reliable := by
  cases adjustment with
  | change entity change =>
      simp only [World.adjust, changeLight]
      split
      · exact hw
      · exact hw.modifyLight entity fun _ => rfl
  | move entity pose =>
      simp only [World.adjust, setLightPose]
      split
      · exact hw.modifyLight entity fun _ => rfl
      · exact hw

theorem Reliable.carryOut (hw : w.Reliable) (deed : Deed K) : (w.carryOut deed).Reliable := by
  cases deed with
  | overwrite entity light =>
      exact hw.modifyLight entity fun _ => rfl
  | act action =>
      cases action with
      | addTree map pose =>
          exact (w.addTree_reworked map pose).reliable hw
      | setTreePose tree pose =>
          exact (w.setTreePose_reworked tree pose).reliable hw
      | spawnLight tree pose light =>
          exact hw.spawnLight tree pose light
      | spawnOccluder tree pose occluder =>
          exact hw.spawnOccluder tree pose occluder
      | despawn entity =>
          exact hw.despawn entity
      | adjust adjustment =>
          exact hw.adjust adjustment
      | replaceOccluder entity occluder =>
          exact hw.modifyOccluder entity fun _ => rfl
      | setOccluderPose entity pose =>
          simp only [World.carryOut, perform, World.setOccluderPose]
          split
          · exact hw.modifyOccluder entity fun _ => rfl
          · exact hw
      | flush =>
          exact (flush_reworked w).reliable hw

/-- Whatever is done, what the directory tells is so. -/
theorem reliable_carryOutAll (hw : w.Reliable) (deeds : List (Deed K)) :
    (w.carryOutAll deeds).Reliable := by
  induction deeds generalizing w with
  | nil =>
      exact hw
  | cons deed rest ih =>
      exact ih (hw.carryOut deed)

end Reliable

section Apart

variable {K : Type} {w : World K} {map : MapId}

/-- A change where a list has nothing of interest changes nothing of interest. -/
theorem filter_modify {α : Type} {p : α → Bool} {f : α → α} {xs : List α} {i : Nat}
    (h : ∀ x ∈ xs[i]?, p x = false ∧ p (f x) = false) :
    (xs.modify i f).filter p = xs.filter p := by
  induction xs generalizing i with
  | nil =>
      simp
  | cons x rest ih =>
      cases i with
      | zero =>
          obtain ⟨hbefore, hafter⟩ := h x rfl
          simp [hbefore, hafter]
      | succ i =>
          have hrest := ih (i := i) fun y hy => h y hy
          simp [List.filter_cons, hrest]

/-- A tree of another map, or none at all, is at a place. -/
def Elsewhere (w : World K) (map : MapId) (i : Nat) : Prop := ∀ t ∈ w.trees[i]?, t.map ≠ map

theorem treesOn_modifyTree {i : Nat} (h : w.Elsewhere map i) {g : Tree K → Tree K}
    (hg : ∀ t, (g t).map = t.map) : (w.modifyTree i g).treesOn map = w.treesOn map := by
  refine filter_modify ?_
  intro t ht
  simp [hg, h t ht]

theorem treesOn_set {w' : World K} {i : Nat} (h : w.Elsewhere map i) {t t' : Tree K}
    (ht : w.trees[i]? = some t) (hw' : w'.trees = w.trees.set i t') (hsame : t'.map = t.map) :
    w'.treesOn map = w.treesOn map := by
  rw [treesOn, hw', List.set_eq_modify]
  refine filter_modify ?_
  intro x hx
  simp [hsame, h t ht, h x hx]

/-- An entity that no tree of a map lists is not led to a tree of that map. -/
theorem Reliable.elsewhere (hw : w.Reliable) {e : EntityId} {l : Location}
    (hunlisted : (w.treesOn map).any (·.lists e) = false) (hl : w.location? e = some l) :
    w.Elsewhere map l.tree := by
  intro t ht hmap
  obtain ⟨s, hs, hentity⟩ := hw.slot_of_location hl
  obtain ⟨t', ht', hs⟩ := tree_of_slotAt? hs
  obtain rfl : t' = t := Option.some.inj (ht'.symm.trans ht)
  have hmem : t' ∈ w.treesOn map :=
    List.mem_filter.mpr ⟨List.mem_of_getElem? ht, by simp [hmap]⟩
  have hlists : t'.lists e = true := by
    cases l with
    | light i p =>
        obtain ⟨x, hx, rfl⟩ := Option.map_eq_some_iff.mp hs
        have hentity : x.entity = e := hentity
        simp only [Tree.lists, Bool.or_eq_true, List.any_eq_true]
        exact Or.inl ⟨x, List.mem_of_getElem? hx, by simp [hentity]⟩
    | occluder i p =>
        obtain ⟨x, hx, rfl⟩ := Option.map_eq_some_iff.mp hs
        have hentity : x.entity = e := hentity
        simp only [Tree.lists, Bool.or_eq_true, List.any_eq_true]
        exact Or.inr ⟨x, List.mem_of_getElem? hx, by simp [hentity]⟩
  exact Bool.false_ne_true (hunlisted.symm.trans (List.any_eq_true.mpr ⟨t', hmem, hlists⟩))

theorem treesOn_modifyLight (hw : w.Reliable) {e : EntityId}
    (h : (w.treesOn map).any (·.lists e) = false) (f : LightSlot K → LightSlot K) :
    (w.modifyLight e f).treesOn map = w.treesOn map := by
  unfold modifyLight
  split
  · next i p hl => exact treesOn_modifyTree (hw.elsewhere h hl) fun _ => rfl
  · rfl

theorem treesOn_modifyOccluder (hw : w.Reliable) {e : EntityId}
    (h : (w.treesOn map).any (·.lists e) = false) (f : OccluderSlot K → OccluderSlot K) :
    (w.modifyOccluder e f).treesOn map = w.treesOn map := by
  unfold modifyOccluder
  split
  · next i p hl => exact treesOn_modifyTree (hw.elsewhere h hl) fun _ => rfl
  · rfl

theorem elsewhere_of_untouched {tree : TreeId} (h : w.touches map (.tree tree) = false) :
    w.Elsewhere map tree.number := by
  intro t ht hmap
  rw [touches, Option.mem_def.mp ht] at h
  simp [hmap] at h

theorem treesOn_spawnOccluder {tree : TreeId} (h : w.Elsewhere map tree.number) (pose : Pose K)
    (occluder : Occluder K) :
    (w.spawnOccluder tree pose occluder).1.treesOn map = w.treesOn map := by
  cases ht : w.trees[tree.number]? with
  | none =>
      rw [spawnOccluder, ht]
  | some t =>
      have htrees : (w.spawnOccluder tree pose occluder).1.trees = w.trees.set tree.number
          { t with occluders := t.occluders ++ [⟨⟨w.nextId⟩, occluder, pose⟩] } := by
        simp [spawnOccluder, ht]
      exact treesOn_set h ht htrees rfl

variable [Scalar K]

theorem treesOn_spawnLight {tree : TreeId} (h : w.Elsewhere map tree.number) (pose : Pose K)
    (light : Light K) : (w.spawnLight tree pose light).1.treesOn map = w.treesOn map := by
  cases ht : w.trees[tree.number]? with
  | none =>
      rw [spawnLight, ht]
  | some t =>
      have htrees : (w.spawnLight tree pose light).1.trees = w.trees.set tree.number
          { t with lights := t.lights ++ [LightSlot.new ⟨w.nextId⟩ pose light] } := by
        simp [spawnLight, ht]
      exact treesOn_set h ht htrees rfl

/-- The entity that takes the free place is in the same tree. -/
theorem treesOn_despawn (hw : w.Reliable) {e : EntityId}
    (h : (w.treesOn map).any (·.lists e) = false) :
    (w.despawn e).1.treesOn map = w.treesOn map := by
  cases hl : w.location? e with
  | none =>
      rw [despawn_of_unlisted hl]
  | some l =>
      obtain ⟨s, hs, -⟩ := hw.slot_of_location hl
      obtain ⟨t, ht, -⟩ := tree_of_slotAt? hs
      have helsewhere := hw.elsewhere h hl
      cases l with
      | light i p =>
          rw [despawn_light hl ht]
          exact treesOn_set helsewhere ht rfl rfl
      | occluder i p =>
          rw [despawn_occluder hl ht]
          exact treesOn_set helsewhere ht rfl rfl

theorem treesOn_adjust (hw : w.Reliable) {adjustment : Adjustment K}
    (h : w.touches map (Deed.act (.adjust adjustment)).target = false) :
    (w.adjust adjustment).1.treesOn map = w.treesOn map := by
  cases adjustment with
  | change entity change =>
      simp only [adjust, changeLight]
      split
      · rfl
      · exact treesOn_modifyLight hw h _
  | move entity pose =>
      simp only [adjust, setLightPose]
      split
      · exact treesOn_modifyLight hw h _
      · rfl

/-- A deed that touches nothing on a map leaves the trees of the map as they are. -/
theorem treesOn_carryOut (hw : w.Reliable) {deed : Deed K}
    (h : w.touches map deed.target = false) :
    (w.carryOut deed).treesOn map = w.treesOn map := by
  cases deed with
  | overwrite entity light =>
      exact treesOn_modifyLight hw h _
  | act action =>
      cases action with
      | addTree other pose =>
          have hother : (other == map) = false := h
          simp [carryOut, perform, addTree, treesOn, List.filter_append, hother]
      | setTreePose tree pose =>
          exact treesOn_modifyTree (elsewhere_of_untouched h) fun _ => rfl
      | spawnLight tree pose light =>
          exact treesOn_spawnLight (elsewhere_of_untouched h) pose light
      | spawnOccluder tree pose occluder =>
          exact treesOn_spawnOccluder (elsewhere_of_untouched h) pose occluder
      | despawn entity =>
          exact treesOn_despawn hw h
      | adjust adjustment =>
          exact treesOn_adjust hw h
      | replaceOccluder entity occluder =>
          exact treesOn_modifyOccluder hw h _
      | setOccluderPose entity pose =>
          simp only [carryOut, perform, setOccluderPose]
          split
          · exact treesOn_modifyOccluder hw h _
          · rfl
      | flush =>
          cases h

/-- Trees of a map that is spared stay as they are. -/
theorem treesOn_carryOutAll (hw : w.Reliable) {deeds : List (Deed K)}
    (h : w.spares map deeds = true) : (w.carryOutAll deeds).treesOn map = w.treesOn map := by
  induction deeds generalizing w with
  | nil =>
      rfl
  | cons deed rest ih =>
      obtain ⟨hdeed, hrest⟩ := Bool.and_eq_true_iff.mp h
      have huntouched : w.touches map deed.target = false := Bool.not_eq_true' _ ▸ hdeed
      have hlater := ih (hw.carryOut deed) hrest
      exact hlater.trans (treesOn_carryOut hw huntouched)

end Apart

section Observed

variable {K : Type} [Scalar K] {map : MapId}

/-- A frame asks an index only about the map of its eye. -/
theorem drawFrame_congr {index index' : SpatialIndex K} {eye : Eye K}
    (hlights : index.lights eye.map = index'.lights eye.map)
    (hoccluders : index.occluders eye.map = index'.occluders eye.map) (device : Capabilities)
    (viewport : Viewport K) (lighting : MapLighting K) :
    Renderer.drawFrame device index eye viewport lighting =
      Renderer.drawFrame device index' eye viewport lighting := by
  have hgather : ∀ r : Renderer K, r.gather index eye viewport = r.gather index' eye viewport := by
    intro r
    have hselect : selectLights index (r.lightQuery eye viewport) r.masks =
        selectLights index' (r.lightQuery eye viewport) r.masks := by
      have hquery : (r.lightQuery eye viewport).eye = eye := rfl
      simp only [selectLights, hquery, hlights]
    have hbuild : ∀ (g : OcclusionGeometry K) bounds,
        g.build index eye bounds = g.build index' eye bounds := by
      intro g bounds
      simp only [OcclusionGeometry.build, hoccluders]
    simp only [Renderer.gather, hselect, hbuild]
  simp only [Renderer.drawFrame, Renderer.framePass, Renderer.activeFrame, hgather]

/-- Maps are apart.  After any deeds at all, deeds that touch nothing on a map leave the answers to
all queries of the map as they are, and so the light at each of its points and each frame of an eye
on it, whatever renderer draws it on whatever device. -/
theorem map_spared (past deeds : List (Deed K))
    (h : ((empty : World K).carryOutAll past).spares map deeds = true) :
    let before := (empty : World K).carryOutAll past
    let after := before.carryOutAll deeds
    (∀ view, after.index.lights map view = before.index.lights map view) ∧
    (∀ area, after.index.occluders map area = before.index.occluders map area) ∧
    (∀ start finish,
      isOccluded after.index map start finish = isOccluded before.index map start finish) ∧
    (∀ point, lightColorAt after.index map point = lightColorAt before.index map point) ∧
    ∀ (device : Capabilities) (eye : Eye K) (viewport : Viewport K) (lighting : MapLighting K),
      eye.map = map →
      Renderer.drawFrame device after.index eye viewport lighting =
        Renderer.drawFrame device before.index eye viewport lighting := by
  intro before after
  have htrees : after.treesOn map = before.treesOn map :=
    treesOn_carryOutAll (reliable_carryOutAll reliable_empty past) h
  have hlights : after.index.lights map = before.index.lights map := by
    funext view
    simp only [index, htrees]
  have hoccluders : after.index.occluders map = before.index.occluders map := by
    funext area
    simp only [index, htrees]
  have hoccluded : ∀ start finish,
      isOccluded after.index map start finish = isOccluded before.index map start finish := by
    intro start finish
    simp only [isOccluded, hoccluders]
  refine ⟨congrFun hlights, congrFun hoccluders, hoccluded, ?_, ?_⟩
  · intro point
    have hreaches : reaches after.index map point = reaches before.index map point := by
      funext e
      rw [reaches, reaches, hoccluded]
    rw [lightColorAt, lightColorAt, lightsReaching, lightsReaching, hlights, hreaches]
  · rintro device eye viewport lighting rfl
    exact drawFrame_congr hlights hoccluders device viewport lighting

/-- A light and a wall on one map, and two lights on another. -/
def twoMaps : List (Deed Float32) :=
  [.act (.addTree ⟨1⟩ Pose.identity),
    .act (.addTree ⟨2⟩ Pose.identity),
    .act (.spawnLight ⟨0⟩ Pose.identity Light.standard),
    .act (.spawnOccluder ⟨0⟩ (Pose.ofPosition ⟨3.0, 0.0⟩) Occluder.tile),
    .act (.spawnLight ⟨1⟩ Pose.identity Light.standard),
    .act (.spawnLight ⟨1⟩ (Pose.ofPosition ⟨1.0, 0.0⟩) Light.standard)]

/-- On the other map the second light takes the place of the first one and is then changed. -/
def changedElsewhere : List (Deed Float32) :=
  [.act (.despawn ⟨3⟩),
    .overwrite ⟨4⟩ { Light.standard with energy := 9.0 },
    .act (.setTreePose ⟨1⟩ (Pose.ofPosition ⟨5.0, 5.0⟩)),
    .act (.spawnOccluder ⟨1⟩ Pose.identity Occluder.tile),
    .act (.addTree ⟨3⟩ Pose.identity)]

theorem map_spared_twoMaps :
    ((empty : World Float32).carryOutAll twoMaps).spares ⟨1⟩ changedElsewhere = true ∧
      ((empty : World Float32).carryOutAll twoMaps).spares ⟨2⟩ changedElsewhere = false ∧
      (let before := (empty : World Float32).carryOutAll twoMaps
      let after := before.carryOutAll changedElsewhere
      let view := RotatedBox.ofBox ((Box2.ofPoint Vec2.zero).enlarged 8.0)
      ((before.index.lights ⟨2⟩ view).length = 2 ∧ (after.index.lights ⟨2⟩ view).length = 1) ∧
      (before.index.lights ⟨1⟩ view).length = 1 ∧
      after.index.lights ⟨1⟩ view = before.index.lights ⟨1⟩ view) := by
  have hspares : ((empty : World Float32).carryOutAll twoMaps).spares ⟨1⟩ changedElsewhere = true := by
    decide +kernel
  obtain ⟨hlights, -⟩ := map_spared twoMaps changedElsewhere hspares
  exact ⟨hspares, by decide +kernel, by decide +kernel, by decide +kernel, hlights _⟩

end Observed

end World
end Penumbra
