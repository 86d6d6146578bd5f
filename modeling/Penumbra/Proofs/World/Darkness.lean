import Mathlib.Data.List.Forall2
import Penumbra.Illumination
import Penumbra.Numeric.Single
import Penumbra.Proofs.World.Notice
import Penumbra.Proofs.World.Walls

/-!
# Walls only darken

Whether something stands between two points is decided wall by wall: each wall is looked for in the
coordinates of its own tree, and whether it blocks does not depend on what else is there.  So nothing
counts but which walls stand, and where.  More walls can only block more, and the lights that still
reach a point are fewer, in their old order, each with what it gave before.  All this holds of
machine scalars as they are, rounding included, and of worlds with any history.

**Results**

* `World.Stands`, `isOccluded_iff_stands`: the walls that decide.
* `World.FewerWalls`: the same trees and lights, and at most the standing walls.
* `FewerWalls.darkened`: more walls can only darken.
* `fewerWalls_gainAll`, `fewerWalls_loseAll`: building, switching on, removing and switching off.
* `World.Rearranged`: the same trees and walls in another order.
* `walls_darken`: what gains, losses and the order of walls change.
-/

namespace Penumbra

variable {K : Type}

/-- A tree at the same place with the same lights, and with all standing walls and perhaps more. -/
structure Tree.FewerWalls (t t' : Tree K) : Prop where
  map : t'.map = t.map
  pose : t'.pose = t.pose
  lights : t'.lights = t.lights
  walls : ∀ s ∈ t.occluders, s.occluder.enabled = true → s ∈ t'.occluders

namespace Tree

theorem FewerWalls.refl (t : Tree K) : t.FewerWalls t := ⟨rfl, rfl, rfl, fun _ hs _ => hs⟩

theorem FewerWalls.trans {t t' t'' : Tree K} (h : t.FewerWalls t') (h' : t'.FewerWalls t'') :
    t.FewerWalls t'' where
  map := h'.map.trans h.map
  pose := h'.pose.trans h.pose
  lights := h'.lights.trans h.lights
  walls s hs henabled := h'.walls s (h.walls s hs henabled) henabled

/-- The same tree with its walls in another order. -/
structure Rearranged (t t' : Tree K) : Prop where
  map : t'.map = t.map
  pose : t'.pose = t.pose
  walls : t.occluders.Perm t'.occluders

end Tree

namespace World

/-- The same trees with the same lights, and with all standing walls and perhaps more. -/
def FewerWalls (w w' : World K) : Prop := List.Forall₂ Tree.FewerWalls w.trees w'.trees

/-- The same trees and walls, with the trees in another order and the walls of each tree as well. -/
def Rearranged (w w' : World K) : Prop :=
  ∃ trees, w.trees.Perm trees ∧ List.Forall₂ Tree.Rearranged trees w'.trees

/-- A wall that stands on a map, in a tree with some pose. -/
def Stands (w : World K) (map : MapId) (pose : Pose K) (s : OccluderSlot K) : Prop :=
  ∃ t ∈ w.trees, t.map = map ∧ t.pose = pose ∧ s ∈ t.occluders ∧ s.occluder.enabled = true

theorem FewerWalls.refl (w : World K) : w.FewerWalls w :=
  List.forall₂_same.mpr fun t _ => Tree.FewerWalls.refl t

theorem FewerWalls.trans {w w' w'' : World K} (h : w.FewerWalls w') (h' : w'.FewerWalls w'') :
    w.FewerWalls w'' := by
  unfold FewerWalls at *
  generalize w'.trees = trees' at h h'
  generalize w.trees = trees at h ⊢
  generalize w''.trees = trees'' at h' ⊢
  induction h generalizing trees'' with
  | nil =>
      exact h'
  | cons htree _ ih =>
      obtain ⟨t'', rest'', htree', hrest', rfl⟩ := List.forall₂_cons_left_iff.mp h'
      exact .cons (htree.trans htree') (ih _ hrest')

theorem exists_of_forall₂ {α β : Type} {R : α → β → Prop} {xs : List α} {ys : List β}
    (h : List.Forall₂ R xs ys) {x : α} (hx : x ∈ xs) : ∃ y ∈ ys, R x y := by
  induction h with
  | nil =>
      cases hx
  | cons hhead _ ih =>
      rcases List.mem_cons.mp hx with rfl | hx
      · exact ⟨_, List.mem_cons_self .., hhead⟩
      · obtain ⟨y, hy, hR⟩ := ih hx
        exact ⟨y, List.mem_cons_of_mem _ hy, hR⟩

theorem FewerWalls.stands {w w' : World K} (h : w.FewerWalls w') {map : MapId} {pose : Pose K}
    {s : OccluderSlot K} (hs : w.Stands map pose s) : w'.Stands map pose s := by
  obtain ⟨t, ht, rfl, rfl, hmem, henabled⟩ := hs
  obtain ⟨t', ht', htree⟩ := exists_of_forall₂ h ht
  exact ⟨t', ht', htree.map, htree.pose, htree.walls s hmem henabled, henabled⟩

theorem Rearranged.stands_iff {w w' : World K} (h : w.Rearranged w') {map : MapId} {pose : Pose K}
    {s : OccluderSlot K} : w.Stands map pose s ↔ w'.Stands map pose s := by
  obtain ⟨trees, hperm, hwalls⟩ := h
  constructor
  · rintro ⟨t, ht, rfl, rfl, hmem, henabled⟩
    obtain ⟨t', ht', htree⟩ := exists_of_forall₂ hwalls (hperm.mem_iff.mp ht)
    exact ⟨t', ht', htree.map, htree.pose, htree.walls.mem_iff.mp hmem, henabled⟩
  · rintro ⟨t', ht', rfl, rfl, hmem, henabled⟩
    obtain ⟨t, ht, htree⟩ := exists_of_forall₂ hwalls.flip ht'
    exact ⟨t, hperm.mem_iff.mpr ht, htree.map.symm, htree.pose.symm, htree.walls.mem_iff.mpr hmem,
      henabled⟩

/-- A change at one place of a list. -/
theorem forall₂_modify {α : Type} {R : α → α → Prop} (hrefl : ∀ x, R x x) {f : α → α}
    {xs : List α} {i : Nat} (h : ∀ x ∈ xs[i]?, R x (f x)) : List.Forall₂ R xs (xs.modify i f) := by
  induction xs generalizing i with
  | nil =>
      rw [List.modify_nil]
      exact .nil
  | cons x rest ih =>
      cases i with
      | zero => exact .cons (h x rfl) (List.forall₂_same.mpr fun y _ => hrefl y)
      | succ i => exact .cons (hrefl x) (ih h)

/-- A tree gets more walls. -/
theorem fewerWalls_modifyTree {w : World K} {i : Nat} {g : Tree K → Tree K}
    (h : ∀ t ∈ w.trees[i]?, t.FewerWalls (g t)) : w.FewerWalls (w.modifyTree i g) :=
  forall₂_modify Tree.FewerWalls.refl h

/-- A tree loses walls. -/
theorem modifyTree_fewerWalls {w : World K} {i : Nat} {g : Tree K → Tree K}
    (h : ∀ t ∈ w.trees[i]?, (g t).FewerWalls t) : (w.modifyTree i g).FewerWalls w :=
  (forall₂_modify (R := flip Tree.FewerWalls) Tree.FewerWalls.refl h).flip

end World

section Verdict

variable [Scalar K]

/-- Something stands between two points of a map just when a standing wall blocks, each wall being
looked for in the coordinates of its own tree. -/
theorem isOccluded_iff_stands {w : World K} {map : MapId} {start finish : Vec2 K} :
    isOccluded w.index map start finish = true ↔
      ∃ pose s, w.Stands map pose s ∧
        (s.occluder.bounds.transformed s.pose.toAffine).intersects
          ((Box2.ofCorners (start.minimum finish) (start.maximum finish)).transformed
            pose.inverseAffine) = true ∧
        (OccluderEntry.mk s.entity s.occluder (pose.andThen s.pose)).blocks start finish = true := by
  rw [isOccluded, List.any_eq_true]
  constructor
  · rintro ⟨e, he, hblocks⟩
    obtain ⟨t, ht, hmap, s, hs, henabled, hoverlaps, rfl⟩ := World.mem_index_occluders.mp he
    exact ⟨t.pose, s, ⟨t, ht, hmap, rfl, hs, henabled⟩, hoverlaps, hblocks⟩
  · rintro ⟨_, s, ⟨t, ht, hmap, rfl, hs, henabled⟩, hoverlaps, hblocks⟩
    exact ⟨_, World.mem_index_occluders.mpr ⟨t, ht, hmap, s, hs, henabled, hoverlaps, rfl⟩, hblocks⟩

/-- More standing walls block more. -/
theorem isOccluded_of_stands {w w' : World K} {map : MapId}
    (h : ∀ pose s, w.Stands map pose s → w'.Stands map pose s) {start finish : Vec2 K}
    (hoccluded : isOccluded w.index map start finish = true) :
    isOccluded w'.index map start finish = true := by
  obtain ⟨pose, s, hs, hblocks⟩ := isOccluded_iff_stands.mp hoccluded
  exact isOccluded_iff_stands.mpr ⟨pose, s, h pose s hs, hblocks⟩

/-- One world is as dark as another one, or darker: what was blocked is blocked, and the lights that
reach a point reached it before. -/
structure World.Darkened (w w' : World K) : Prop where
  occluded : ∀ map start finish, isOccluded w.index map start finish = true →
    isOccluded w'.index map start finish = true
  lights : ∀ map point,
    (lightsReaching w'.index map point).Sublist (lightsReaching w.index map point)
  contributions : ∀ map point,
    ((lightsReaching w'.index map point).map (contribution point)).Sublist
      ((lightsReaching w.index map point).map (contribution point))

namespace World

/-- Walls are no part of what a query for lights answers. -/
theorem FewerWalls.index_lights {w w' : World K} (h : w.FewerWalls w') (map : MapId)
    (view : RotatedBox K) : w'.index.lights map view = w.index.lights map view := by
  unfold FewerWalls at h
  simp only [index, treesOn]
  generalize w.trees = trees at *
  generalize w'.trees = trees' at *
  induction h with
  | nil =>
      rfl
  | cons htree _ ih =>
      simp only [List.filter_cons, htree.map]
      split
      · rw [List.flatMap_cons, List.flatMap_cons, ih]
        simp only [treeLights, htree.pose, htree.lights]
      · exact ih

theorem FewerWalls.darkened {w w' : World K} (h : w.FewerWalls w') : w.Darkened w' := by
  have hoccluded : ∀ map start finish, isOccluded w.index map start finish = true →
      isOccluded w'.index map start finish = true :=
    fun map _ _ => isOccluded_of_stands fun _ _ => h.stands
  have hlights : ∀ map point,
      (lightsReaching w'.index map point).Sublist (lightsReaching w.index map point) := by
    intro map point
    rw [lightsReaching, lightsReaching, h.index_lights]
    refine List.monotone_filter_right _ ?_
    intro e he
    simp only [reaches, Bool.and_eq_true, Bool.not_eq_true'] at he ⊢
    refine ⟨he.1, ?_⟩
    rw [Bool.eq_false_iff]
    intro hblocked
    rw [hoccluded map e.position point hblocked] at he
    cases he.2
  exact ⟨hoccluded, hlights, fun map point => (hlights map point).map _⟩

end World

end Verdict

section Changes

/-- A change that gives a world more standing walls. -/
inductive WallGain (K : Type) where
  | build (tree : TreeId) (pose : Pose K) (occluder : Occluder K)
  | enable (entity : EntityId)
deriving Repr, Inhabited

/-- A change that takes standing walls from a world. -/
inductive WallLoss where
  | despawn (entity : EntityId)
  | disable (entity : EntityId)
deriving Repr, Inhabited

namespace World

/-- Switches the wall of an entity on or off. -/
def switchWall (w : World K) (entity : EntityId) (enabled : Bool) : World K :=
  match w.occluder? entity with
  | some occluder => w.replaceOccluder entity { occluder with enabled }
  | none => w

/-- Builds a wall or switches one on. -/
def gain [Scalar K] (w : World K) : WallGain K → World K
  | .build tree pose occluder => (w.spawnOccluder tree pose occluder).1
  | .enable entity => w.switchWall entity true

/-- Removes a wall or switches one off; what is no wall is left alone. -/
def lose [Scalar K] (w : World K) : WallLoss → World K
  | .despawn entity => if (w.occluder? entity).isSome then (w.despawn entity).1 else w
  | .disable entity => w.switchWall entity false

def gainAll [Scalar K] (w : World K) (gains : List (WallGain K)) : World K := gains.foldl gain w

def loseAll [Scalar K] (w : World K) (losses : List WallLoss) : World K := losses.foldl lose w

/-- A wall is found in the list of a tree. -/
theorem exists_of_occluder? {w : World K} {e : EntityId} {o : Occluder K}
    (h : w.occluder? e = some o) :
    ∃ i p t s, w.location? e = some (.occluder i p) ∧ w.trees[i]? = some t ∧
      t.occluders[p]? = some s ∧ s.occluder = o := by
  obtain ⟨s, hs, rfl⟩ := Option.map_eq_some_iff.mp h
  rw [occluderSlot?] at hs
  split at hs
  · next i p he =>
      obtain ⟨t, ht, hplace⟩ := Option.bind_eq_some_iff.mp hs
      exact ⟨i, p, t, s, he, ht, hplace, rfl⟩
  · cases hs

/-- Switching a wall changes one place in the list of one tree. -/
theorem switchWall_cases (w : World K) (e : EntityId) (enabled : Bool) :
    w.switchWall e enabled = w ∨
      ∃ i p t s, w.trees[i]? = some t ∧ t.occluders[p]? = some s ∧
        w.switchWall e enabled = w.modifyTree i fun t =>
          { t with
            occluders := t.occluders.modify p fun r =>
              { r with occluder := { s.occluder with enabled } } } := by
  cases hwall : w.occluder? e with
  | none =>
      exact Or.inl (by rw [switchWall, hwall])
  | some o =>
      obtain ⟨i, p, t, s, he, ht, hs, rfl⟩ := exists_of_occluder? hwall
      refine Or.inr ⟨i, p, t, s, ht, hs, ?_⟩
      simp only [switchWall, hwall, replaceOccluder, modifyOccluder, he]

theorem fewerWalls_enable (w : World K) (e : EntityId) : w.FewerWalls (w.switchWall e true) := by
  rcases w.switchWall_cases e true with hsame | ⟨i, p, t, s, ht, hs, hswitched⟩
  · rw [hsame]
    exact .refl w
  · rw [hswitched]
    refine fewerWalls_modifyTree ?_
    intro t' ht'
    obtain rfl : t = t' := Option.some.inj (ht.symm.trans ht')
    refine ⟨rfl, rfl, rfl, ?_⟩
    intro r hr henabled
    obtain ⟨j, hj⟩ := List.getElem?_of_mem hr
    refine List.mem_of_getElem? (i := j) ?_
    rw [List.getElem?_modify, hj]
    by_cases hpj : p = j
    · -- The wall that is switched on stood before.
      obtain rfl : s = r := Option.some.inj (hs.symm.trans (hpj ▸ hj))
      simp [hpj, ← henabled]
    · simp [hpj]

theorem fewerWalls_disable (w : World K) (e : EntityId) : (w.switchWall e false).FewerWalls w := by
  rcases w.switchWall_cases e false with hsame | ⟨i, p, t, s, -, -, hswitched⟩
  · rw [hsame]
    exact .refl w
  · rw [hswitched]
    refine modifyTree_fewerWalls ?_
    intro t' _
    refine ⟨rfl, rfl, rfl, ?_⟩
    intro r hr henabled
    rcases mem_modify hr with hr | ⟨r', -, rfl⟩
    · exact hr
    · cases henabled

variable [Scalar K]

theorem fewerWalls_gain (w : World K) (g : WallGain K) : w.FewerWalls (w.gain g) := by
  cases g with
  | build tree pose occluder =>
      rw [gain, spawnOccluder]
      split
      · exact .refl w
      · next t ht =>
          have hmore := fewerWalls_modifyTree (w := w) (i := tree.number)
            (g := fun _ => { t with occluders := t.occluders ++ [⟨⟨w.nextId⟩, occluder, pose⟩] }) (by
              intro t' ht'
              obtain rfl : t = t' := Option.some.inj (ht.symm.trans ht')
              exact ⟨rfl, rfl, rfl, fun s hs _ => List.mem_append_left _ hs⟩)
          rw [FewerWalls, modifyTree, ← List.set_eq_modify] at hmore
          exact hmore
  | enable entity =>
      exact w.fewerWalls_enable entity

theorem fewerWalls_lose (w : World K) (l : WallLoss) : (w.lose l).FewerWalls w := by
  cases l with
  | despawn entity =>
      rw [lose]
      split
      · next hwall =>
          obtain ⟨o, ho⟩ := Option.isSome_iff_exists.mp hwall
          obtain ⟨i, p, t, s, he, ht, -, -⟩ := exists_of_occluder? ho
          have hless := modifyTree_fewerWalls (w := w) (i := i)
            (g := fun _ => { t with occluders := swapRemove t.occluders p }) (by
              intro t' ht'
              obtain rfl : t = t' := Option.some.inj (ht.symm.trans ht')
              exact ⟨rfl, rfl, rfl, fun r hr _ => mem_of_mem_swapRemove hr⟩)
          rw [FewerWalls, modifyTree, ← List.set_eq_modify] at hless
          rw [despawn_occluder he ht]
          exact hless
      · exact .refl w
  | disable entity =>
      exact w.fewerWalls_disable entity

theorem fewerWalls_gainAll (w : World K) (gains : List (WallGain K)) :
    w.FewerWalls (w.gainAll gains) := by
  induction gains generalizing w with
  | nil =>
      exact .refl w
  | cons g rest ih =>
      exact (w.fewerWalls_gain g).trans (ih (w.gain g))

theorem fewerWalls_loseAll (w : World K) (losses : List WallLoss) :
    (w.loseAll losses).FewerWalls w := by
  induction losses generalizing w with
  | nil =>
      exact .refl w
  | cons l rest ih =>
      exact (ih (w.lose l)).trans (w.fewerWalls_lose l)

/-- **Walls only darken.**  Whatever walls are built or switched on, what was blocked stays blocked,
and the lights that reach a point are some of those that reached it before, in their order and with
what each of them gave.  Whatever walls are removed or switched off, it is the other way round.  And
what stands between two points does not depend on the order of trees and walls. -/
theorem walls_darken (w : World K) (gains : List (WallGain K)) (losses : List WallLoss) :
    w.Darkened (w.gainAll gains) ∧ (w.loseAll losses).Darkened w ∧
      ∀ w', w.Rearranged w' → ∀ map start finish,
        isOccluded w'.index map start finish = isOccluded w.index map start finish := by
  refine ⟨(w.fewerWalls_gainAll gains).darkened, (w.fewerWalls_loseAll losses).darkened, ?_⟩
  intro w' hrearranged map start finish
  rw [Bool.eq_iff_iff]
  exact ⟨isOccluded_of_stands fun _ _ => hrearranged.stands_iff.mpr,
    isOccluded_of_stands fun _ _ => hrearranged.stands_iff.mp⟩

/-- A lamp in the first of two trees, and a wall beside its ray in the second one. -/
def openLamp : World Float32 :=
  ((World.empty : World Float32).run
    [.addTree ⟨1⟩ Pose.identity, .addTree ⟨1⟩ (Pose.ofPosition ⟨1.0, 0.0⟩),
      .spawnLight ⟨0⟩ Pose.identity { Light.standard with radius := 6.0 },
      .spawnOccluder ⟨1⟩ (Pose.ofPosition ⟨1.0, 3.0⟩) Occluder.tile]).1

/-- A wall that is built across the ray takes the lamp away, and switching it off brings it back. -/
theorem walls_darken_openLamp :
    let more := openLamp.gainAll [.build ⟨1⟩ (Pose.ofPosition ⟨1.0, 0.0⟩) Occluder.tile]
    let fewer := more.loseAll [.disable ⟨3⟩]
    let mirrored : World Float32 := { more with trees := more.trees.reverse }
    (lightsReaching openLamp.index ⟨1⟩ ⟨4.0, 0.0⟩).length = 1 ∧
      (lightsReaching more.index ⟨1⟩ ⟨4.0, 0.0⟩).length = 0 ∧
      (lightsReaching fewer.index ⟨1⟩ ⟨4.0, 0.0⟩).length = 1 ∧
      openLamp.Darkened more ∧ fewer.Darkened more ∧ more.Rearranged mirrored ∧
      isOccluded mirrored.index ⟨1⟩ Vec2.zero ⟨4.0, 0.0⟩ =
        isOccluded more.index ⟨1⟩ Vec2.zero ⟨4.0, 0.0⟩ := by
  intro more fewer mirrored
  have hmirrored : more.Rearranged mirrored :=
    ⟨more.trees.reverse, (List.reverse_perm _).symm,
      List.forall₂_same.mpr fun _ _ => ⟨rfl, rfl, List.Perm.refl _⟩⟩
  refine ⟨by decide +kernel, by decide +kernel, by decide +kernel, ?_, ?_, hmirrored, ?_⟩
  · exact (walls_darken openLamp _ []).1
  · exact (walls_darken more [] [.disable ⟨3⟩]).2.1
  · exact (walls_darken more [] []).2.2 mirrored hmirrored ⟨1⟩ Vec2.zero ⟨4.0, 0.0⟩

end World

end Changes

end Penumbra
