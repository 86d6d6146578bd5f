import Penumbra.Proofs.World.Directory

/-!
# What the operations of a world do to its directory

Each operation is one of the three kinds of changes: flushes, moves and changes of components are
reworks, spawning puts a slot behind a list, and removing an entity vacates its place.  After this
module no operation has to be unfolded to know who is listed where.

**Results**

* `addTree_reworked`, `setTreePose_reworked`, `modifyLight_reworked`, `modifyOccluder_reworked`,
  `flush_reworked`: the reworks.
* `spawnLight_extended`, `spawnOccluder_extended`: the new slots.
* `despawn_vacated`, `despawn_snd`: removals.
-/

namespace Penumbra
namespace World

section Operations

variable {K : Type}

theorem slotAt?_of_trees_set {w w' : World K} {i : Nat} {t t' : Tree K}
    (hw' : w'.trees = w.trees.set i t') (ht : w.trees[i]? = some t) (l : Location) :
    w'.slotAt? l = if l.tree = i then t'.slotAt? l else w.slotAt? l := by
  have hi : i < w.trees.length := by
    rw [List.getElem?_eq_some_iff] at ht
    exact ht.1
  by_cases hl : l.tree = i
  · simp [slotAt?, hw', hl, hi]
  · simp [slotAt?, hw', hl, List.getElem?_set_ne (fun h => hl h.symm)]

theorem tree_of_slotAt? {w : World K} {l : Location} {s : Slot K} (h : w.slotAt? l = some s) :
    ∃ t, w.trees[l.tree]? = some t ∧ t.slotAt? l = some s := by
  simpa [slotAt?, Option.bind_eq_some_iff] using h

theorem slotAt?_modifyTree (w : World K) (i : Nat) (g : Tree K → Tree K) (l : Location) :
    (w.modifyTree i g).slotAt? l =
      if l.tree = i then w.trees[i]?.bind fun t => (g t).slotAt? l else w.slotAt? l := by
  by_cases hl : l.tree = i
  · simp only [slotAt?, modifyTree, List.getElem?_modify, hl, if_true]
    cases w.trees[i]? <;> rfl
  · have hne : i ≠ l.tree := fun h => hl h.symm
    simp only [slotAt?, modifyTree, List.getElem?_modify, hl, hne, if_false]
    cases w.trees[l.tree]? <;> rfl

theorem addTree_reworked (w : World K) (map : MapId) (pose : Pose K) :
    w.Reworked (w.addTree map pose).1 fun _ s => s where
  location? _ := rfl
  slotAt? l := by
    rcases Nat.lt_trichotomy l.tree w.trees.length with h | h | h
    · simp [slotAt?, addTree, List.getElem?_append_left h]
    · cases l <;> simp_all [slotAt?, addTree, Tree.slotAt?, Location.tree]
    · have hold : w.trees[l.tree]? = none := List.getElem?_eq_none_iff.mpr (Nat.le_of_lt h)
      have hnew : (w.addTree map pose).1.trees[l.tree]? = none := by
        rw [List.getElem?_eq_none_iff, addTree, List.length_append]
        exact h
      rw [slotAt?, slotAt?, hold, hnew]
      rfl
  entity _ _ := rfl

theorem setTreePose_reworked (w : World K) (tree : TreeId) (pose : Pose K) :
    w.Reworked (w.setTreePose tree pose) fun _ s => s where
  location? _ := rfl
  slotAt? l := by
    rw [setTreePose, slotAt?_modifyTree, Option.map_id']
    by_cases hl : l.tree = tree.number
    · rw [if_pos hl, slotAt?, hl]
      cases w.trees[tree.number]? with
      | none => rfl
      | some t => cases l <;> rfl
    · rw [if_neg hl]
  entity _ _ := rfl

/-- The slot of an entity is changed by changing the tree that lists it. -/
theorem modifyTree_reworked {w : World K} {e : EntityId} {l : Location}
    (he : w.location? e = some l) {g : Tree K → Tree K} {h : Slot K → Slot K}
    (hentity : ∀ s, (h s).entity = s.entity)
    (hg : ∀ t m, m.tree = l.tree →
      (g t).slotAt? m = (t.slotAt? m).map fun s => if m = l then h s else s) :
    w.Reworked (w.modifyTree l.tree g) fun m s =>
      if w.location? e = some m then h s else s where
  location? _ := rfl
  slotAt? m := by
    have hiff : w.location? e = some m ↔ m = l := by
      rw [he, Option.some.injEq, eq_comm]
    simp only [hiff]
    rw [slotAt?_modifyTree]
    by_cases hm : m.tree = l.tree
    · rw [if_pos hm, slotAt?, hm]
      cases w.trees[l.tree]? with
      | none => rfl
      | some t => exact hg t m hm
    · have hne : m ≠ l := by
        rintro rfl
        exact hm rfl
      simp [hm, hne]
  entity m s := by
    split
    · exact hentity s
    · rfl

/-- Without a slot that the change is for nothing is changed. -/
theorem reworked_self {w : World K} {e : EntityId} {h : Slot K → Slot K}
    (hentity : ∀ s, (h s).entity = s.entity)
    (hsame : ∀ m s, w.location? e = some m → w.slotAt? m = some s → h s = s) :
    w.Reworked w fun m s => if w.location? e = some m then h s else s where
  location? _ := rfl
  slotAt? m := by
    by_cases hm : w.location? e = some m
    · cases hs : w.slotAt? m with
      | none => rfl
      | some s => simp [hm, hsame m s hm hs]
    · simp [hm]
  entity m s := by
    split
    · exact hentity s
    · rfl

theorem modifyLight_reworked (w : World K) (e : EntityId) {f : LightSlot K → LightSlot K}
    (hf : ∀ s, (f s).entity = s.entity) :
    w.Reworked (w.modifyLight e f) fun m s =>
      if w.location? e = some m then s.mapLight f else s := by
  unfold modifyLight
  split
  · next i p he =>
      refine modifyTree_reworked he (Slot.entity_mapLight hf) ?_
      intro t m hm
      cases m with
      | light j q =>
          obtain rfl : j = i := hm
          by_cases hq : q = p
          · simp [Tree.slotAt?, hq, Option.map_map, Function.comp_def, Slot.mapLight]
          · have hq' : p ≠ q := fun h => hq h.symm
            simp [Tree.slotAt?, hq, hq', Function.comp_def]
      | occluder j q =>
          simp [Tree.slotAt?, Function.comp_def]
  · next hnone =>
      refine reworked_self (Slot.entity_mapLight hf) ?_
      intro m s hm hs
      obtain ⟨t, -, hs⟩ := tree_of_slotAt? hs
      cases m with
      | light i p =>
          exact absurd hm (hnone i p)
      | occluder i p =>
          obtain ⟨s', -, rfl⟩ := Option.map_eq_some_iff.mp hs
          rfl

theorem modifyOccluder_reworked (w : World K) (e : EntityId) {f : OccluderSlot K → OccluderSlot K}
    (hf : ∀ s, (f s).entity = s.entity) :
    w.Reworked (w.modifyOccluder e f) fun m s =>
      if w.location? e = some m then s.mapOccluder f else s := by
  unfold modifyOccluder
  split
  · next i p he =>
      refine modifyTree_reworked he (Slot.entity_mapOccluder hf) ?_
      intro t m hm
      cases m with
      | light j q =>
          simp [Tree.slotAt?, Function.comp_def]
      | occluder j q =>
          obtain rfl : j = i := hm
          by_cases hq : q = p
          · simp [Tree.slotAt?, hq, Option.map_map, Function.comp_def, Slot.mapOccluder]
          · have hq' : p ≠ q := fun h => hq h.symm
            simp [Tree.slotAt?, hq, hq', Function.comp_def]
  · next hnone =>
      refine reworked_self (Slot.entity_mapOccluder hf) ?_
      intro m s hm hs
      obtain ⟨t, -, hs⟩ := tree_of_slotAt? hs
      cases m with
      | light i p =>
          obtain ⟨s', -, rfl⟩ := Option.map_eq_some_iff.mp hs
          rfl
      | occluder i p =>
          exact absurd hm (hnone i p)

theorem spawnOccluder_extended [Scalar K] {w : World K} {tree : TreeId} {t : Tree K}
    (ht : w.trees[tree.number]? = some t) (pose : Pose K) (occluder : Occluder K) :
    w.Extended (w.spawnOccluder tree pose occluder).1
      (.occluder tree.number t.occluders.length) (.occluder ⟨⟨w.nextId⟩, occluder, pose⟩) where
  free := by
    simp [slotAt?, Tree.slotAt?, Location.tree, ht]
  location? e := by
    simp only [spawnOccluder, ht, location?, lookup_record]
    rfl
  slotAt? m := by
    have htrees : (w.spawnOccluder tree pose occluder).1.trees = w.trees.set tree.number
        { t with occluders := t.occluders ++ [⟨⟨w.nextId⟩, occluder, pose⟩] } := by
      simp [spawnOccluder, ht]
    rw [slotAt?_of_trees_set htrees ht]
    by_cases hm : m.tree = tree.number
    · cases m with
      | light i p =>
          obtain rfl : i = tree.number := hm
          simp [slotAt?, Tree.slotAt?, Location.tree, ht]
      | occluder i p =>
          obtain rfl : i = tree.number := hm
          simp only [slotAt?, Tree.slotAt?, Location.tree, ht, List.getElem?_append]
          grind
    · have hne : m ≠ .occluder tree.number t.occluders.length := by
        rintro rfl
        exact hm rfl
      simp [hm, hne]

theorem spawnLight_extended [Scalar K] {w : World K} {tree : TreeId} {t : Tree K}
    (ht : w.trees[tree.number]? = some t) (pose : Pose K) (light : Light K) :
    w.Extended (w.spawnLight tree pose light).1
      (.light tree.number t.lights.length) (.light (LightSlot.new ⟨w.nextId⟩ pose light)) where
  free := by
    simp [slotAt?, Tree.slotAt?, Location.tree, ht]
  location? e := by
    simp only [spawnLight, ht, location?, lookup_record]
    rfl
  slotAt? m := by
    have htrees : (w.spawnLight tree pose light).1.trees = w.trees.set tree.number
        { t with lights := t.lights ++ [LightSlot.new ⟨w.nextId⟩ pose light] } := by
      simp [spawnLight, ht]
    rw [slotAt?_of_trees_set htrees ht]
    by_cases hm : m.tree = tree.number
    · cases m with
      | light i p =>
          obtain rfl : i = tree.number := hm
          simp only [slotAt?, Tree.slotAt?, Location.tree, ht, List.getElem?_append]
          grind
      | occluder i p =>
          obtain rfl : i = tree.number := hm
          simp [slotAt?, Tree.slotAt?, Location.tree, ht]
    · have hne : m ≠ .light tree.number t.lights.length := by
        rintro rfl
        exact hm rfl
      simp [hm, hne]

theorem despawn_light [Scalar K] {w : World K} {e : EntityId} {i p : Nat} {t : Tree K}
    (he : w.location? e = some (.light i p)) (ht : w.trees[i]? = some t) :
    (w.despawn e).1 =
      { w with
        trees := w.trees.set i { t with lights := swapRemove t.lights p }
        directory := recordMoved (forget w.directory e)
          ((swapRemove t.lights p)[p]?.map (·.entity)) (.light i p) } := by
  simp [despawn, he, ht]

theorem despawn_occluder [Scalar K] {w : World K} {e : EntityId} {i p : Nat} {t : Tree K}
    (he : w.location? e = some (.occluder i p)) (ht : w.trees[i]? = some t) :
    (w.despawn e).1 =
      { w with
        trees := w.trees.set i { t with occluders := swapRemove t.occluders p }
        directory := recordMoved (forget w.directory e)
          ((swapRemove t.occluders p)[p]?.map (·.entity)) (.occluder i p) } := by
  simp [despawn, he, ht]

/-- A removal from one of the two lists of a tree, whose places are the locations `place`. -/
theorem vacated_of_swapRemove {α : Type} {w w' : World K} {e : EntityId} {i p : Nat} {t t' : Tree K}
    (place : Nat → Location) (slot : α → Slot K) (xs : List α)
    (hinjective : ∀ q r, place q = place r → q = r)
    (htree : ∀ q, (place q).tree = i)
    (hbefore : ∀ q, t.slotAt? (place q) = xs[q]?.map slot)
    (hafter : ∀ q, t'.slotAt? (place q) = (swapRemove xs p)[q]?.map slot)
    (hother : ∀ m, m.tree = i → (∀ q, m ≠ place q) → t'.slotAt? m = t.slotAt? m)
    (ht : w.trees[i]? = some t) (he : w.location? e = some (place p)) (hp : p < xs.length)
    (htrees : w'.trees = w.trees.set i t')
    (hdirectory : w'.directory = recordMoved (forget w.directory e)
      ((swapRemove xs p)[p]?.map fun x => (slot x).entity) (place p)) :
    ∃ last s, w.Vacated w' e (place p) last s := by
  have hlast := List.getElem?_eq_getElem (show xs.length - 1 < xs.length by omega)
  refine ⟨place (xs.length - 1), slot xs[xs.length - 1], ?_⟩
  have hplaces : ∀ q r, place q = place r ↔ q = r :=
    fun q r => ⟨hinjective q r, fun h => by rw [h]⟩
  exact
    { listed := he
      tree_eq := by rw [htree, htree]
      moved := by simp [World.slotAt?, htree, ht, hbefore, hlast]
      location? := by
        intro e'
        rw [World.location?, hdirectory, lookup_recordMoved, lookup_forget,
          getElem?_swapRemove hp, World.location?]
        by_cases hlp : p = xs.length - 1
        · simp [← hlp]
        · simp [hlp, hplaces, hlast, eq_comm]
      slotAt? := by
        intro m
        rw [slotAt?_of_trees_set htrees ht]
        by_cases hm : ∃ q, m = place q
        · obtain ⟨q, rfl⟩ := hm
          have hq : w.slotAt? (place q) = xs[q]?.map slot := by
            simp [World.slotAt?, htree, ht, hbefore]
          rw [if_pos (htree q), hafter, getElem?_swapRemove hp, hq, hlast]
          simp only [hplaces]
          split_ifs <;> rfl
        · have hne : ∀ q, m ≠ place q := fun q h => hm ⟨q, h⟩
          rw [if_neg (hne _), if_neg (hne _)]
          by_cases hi : m.tree = i
          · rw [if_pos hi, hother m hi hne, World.slotAt?, hi, ht]
            rfl
          · rw [if_neg hi] }

theorem despawn_vacated [Scalar K] {w : World K} (hw : w.Reliable) {e : EntityId} {l : Location}
    (he : w.location? e = some l) :
    ∃ last s, w.Vacated (w.despawn e).1 e l last s := by
  obtain ⟨s, hs, -⟩ := hw.slot_of_location he
  obtain ⟨t, ht, hs⟩ := tree_of_slotAt? hs
  cases l with
  | light i p =>
      obtain ⟨x, hx, -⟩ := Option.map_eq_some_iff.mp hs
      obtain ⟨hp, -⟩ := List.getElem?_eq_some_iff.mp hx
      rw [despawn_light he ht]
      refine vacated_of_swapRemove (.light i) .light t.lights ?_ (fun _ => rfl) (fun _ => rfl)
        (fun _ => rfl) ?_ ht he hp rfl rfl
      · rintro q r ⟨⟩
        rfl
      · intro m hm hne
        cases m with
        | light j q =>
            obtain rfl : j = i := hm
            exact absurd rfl (hne q)
        | occluder j q =>
            rfl
  | occluder i p =>
      obtain ⟨x, hx, -⟩ := Option.map_eq_some_iff.mp hs
      obtain ⟨hp, -⟩ := List.getElem?_eq_some_iff.mp hx
      rw [despawn_occluder he ht]
      refine vacated_of_swapRemove (.occluder i) .occluder t.occluders ?_ (fun _ => rfl)
        (fun _ => rfl) (fun _ => rfl) ?_ ht he hp rfl rfl
      · rintro q r ⟨⟩
        rfl
      · intro m hm hne
        cases m with
        | light j q =>
            rfl
        | occluder j q =>
            obtain rfl : j = i := hm
            exact absurd rfl (hne q)

theorem despawn_of_unlisted [Scalar K] {w : World K} {e : EntityId} (he : w.location? e = none) :
    w.despawn e = (w, false) := by
  simp [despawn, he]

theorem despawn_snd [Scalar K] (w : World K) (e : EntityId) :
    (w.despawn e).2 = (w.location? e).isSome := by
  rcases he : w.location? e with _ | ⟨i, p⟩ | ⟨i, p⟩
  · simp [despawn, he]
  · cases ht : w.trees[i]? <;> simp [despawn, he, ht]
  · cases ht : w.trees[i]? <;> simp [despawn, he, ht]

/-- A tree takes notice of a light if an update is queued. -/
def noticed [Scalar K] (s : LightSlot K) : LightSlot K :=
  if s.light.updateQueued then s.refresh else s

theorem entity_noticed [Scalar K] (s : LightSlot K) : (noticed s).entity = s.entity := by
  unfold noticed
  split <;> rfl

theorem flush_trees [Scalar K] (w : World K) :
    w.flush.1.trees = w.trees.map fun t => { t with lights := t.lights.map noticed } := rfl

theorem flush_reworked [Scalar K] (w : World K) :
    w.Reworked w.flush.1 fun _ s => s.mapLight noticed where
  location? _ := rfl
  slotAt? l := by
    simp only [slotAt?, flush_trees, List.getElem?_map]
    cases w.trees[l.tree]? with
    | none =>
        rfl
    | some t =>
        cases l <;> simp [Tree.slotAt?, Function.comp_def, Slot.mapLight]
  entity _ s := s.entity_mapLight entity_noticed

end Operations

end World
end Penumbra
