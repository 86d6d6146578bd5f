import Penumbra.Proofs.World.Roster

/-!
# Names that come round again

Entities are named by the numbers one after the other, and after the last number comes the first one
again.  Nothing asks whether the entity of a number is still there.  So the name of a new entity
depends on how many were named before and on nothing else.  As long as there are numbers that were
never given, it is unlike all others; after that it may be the name of an entity that is still
there, and then the directory leads to the new one instead.

**Results**

* `Tallies.run`: the next number in a run of any length.
* `extended_of_spawned`: what an action does that names an entity.
* `names_of_spawns`: the names of new entities, which are new while there are unused ones.
* `run_passing`: entities that come and go leave nothing behind but the next number.
* `lastingLamp_renamed`: a lamp whose name is given again while it is there.
-/

namespace Penumbra
namespace World

section Tallies

variable {K : Type}

/-- A world has as many trees as a roster, and it gives next the number the roster counted to. -/
structure Tallies (w : World K) (r : Roster K) : Prop where
  treeCount : w.trees.length = r.treeCount
  nextId : (⟨w.nextId⟩ : EntityId) = Roster.entityAt (r.spawned % 4294967295)

/-- The number after the last one is the first one. -/
theorem numberAfter_entityAt (n : Nat) :
    (⟨numberAfter (Roster.entityAt (n % 4294967295)).number⟩ : EntityId) =
      Roster.entityAt ((n + 1) % 4294967295) := by
  rcases Nat.lt_or_ge (n % 4294967295 + 1) 4294967295 with hfits | hlast
  · have hnext : (n + 1) % 4294967295 = n % 4294967295 + 1 := by
      omega
    rw [hnext]
    exact numberAfter_ofNat hfits
  · have hmax : n % 4294967295 = 4294967294 := by
      omega
    have hfirst : (n + 1) % 4294967295 = 0 := by
      omega
    rw [hmax, hfirst]
    rfl

variable {w w' : World K} {r r' : Roster K}

theorem Tallies.keep (h : Tallies w r)
    (hw : w'.trees.length = w.trees.length ∧ w'.nextId = w.nextId)
    (hr : r'.treeCount = r.treeCount ∧ r'.spawned = r.spawned) : Tallies w' r' where
  treeCount := by
    rw [hw.1, hr.1, h.treeCount]
  nextId := by
    rw [hw.2, hr.2, h.nextId]

/-- A spawn into a known tree names an entity on both sides, and into an unknown one on none. -/
theorem Tallies.spawn (h : Tallies w r) {tree : TreeId} {pose : Pose K} {part : Part K}
    (hunknown : w.trees[tree.number]? = none → w' = w)
    (hknown : ∀ t, w.trees[tree.number]? = some t →
      w'.trees.length = w.trees.length ∧ w'.nextId = numberAfter w.nextId) :
    Tallies w' (r.spawn tree pose part).1 := by
  cases ht : w.trees[tree.number]? with
  | none =>
      have hlarge : ¬tree.number < r.treeCount := by
        rw [← h.treeCount]
        exact Nat.not_lt.mpr (List.getElem?_eq_none_iff.mp ht)
      rw [Roster.spawn, if_neg hlarge, hunknown ht]
      exact h
  | some t =>
      have hsmall : tree.number < r.treeCount := by
        rw [← h.treeCount]
        exact (List.getElem?_eq_some_iff.mp ht).1
      obtain ⟨hlength, hnext⟩ := hknown t ht
      rw [Roster.spawn, if_pos hsmall]
      exact
        { treeCount := hlength.trans h.treeCount
          nextId := by
            rw [hnext, ← numberAfter_entityAt, ← h.nextId] }

theorem modifyLight_frame (w : World K) (e : EntityId) (f : LightSlot K → LightSlot K) :
    (w.modifyLight e f).trees.length = w.trees.length ∧ (w.modifyLight e f).nextId = w.nextId := by
  unfold modifyLight
  split
  · exact ⟨modifyTree_length .., rfl⟩
  · exact ⟨rfl, rfl⟩

theorem modifyOccluder_frame (w : World K) (e : EntityId) (f : OccluderSlot K → OccluderSlot K) :
    (w.modifyOccluder e f).trees.length = w.trees.length ∧
      (w.modifyOccluder e f).nextId = w.nextId := by
  unfold modifyOccluder
  split
  · exact ⟨modifyTree_length .., rfl⟩
  · exact ⟨rfl, rfl⟩

variable [Scalar K]

theorem adjust_frame (w : World K) (adjustment : Adjustment K) :
    (w.adjust adjustment).1.trees.length = w.trees.length ∧
      (w.adjust adjustment).1.nextId = w.nextId := by
  cases adjustment with
  | change entity change =>
      simp only [adjust, changeLight]
      split
      · exact ⟨rfl, rfl⟩
      · exact modifyLight_frame ..
  | move entity pose =>
      simp only [adjust, setLightPose]
      split
      · exact modifyLight_frame ..
      · exact ⟨rfl, rfl⟩

omit [Scalar K] in
theorem setOccluderPose_frame (w : World K) (e : EntityId) (pose : Pose K) :
    (w.setOccluderPose e pose).1.trees.length = w.trees.length ∧
      (w.setOccluderPose e pose).1.nextId = w.nextId := by
  unfold setOccluderPose
  split
  · exact modifyOccluder_frame ..
  · exact ⟨rfl, rfl⟩

theorem roster_adjust_frame (r : Roster K) (adjustment : Adjustment K) :
    (r.adjust adjustment).1.treeCount = r.treeCount ∧
      (r.adjust adjustment).1.spawned = r.spawned := by
  cases adjustment <;> simp only [Roster.adjust] <;> split <;> exact ⟨rfl, rfl⟩

theorem Tallies.perform (h : Tallies w r) (action : Action K) :
    Tallies (w.perform action).1 (r.perform action).1 := by
  cases action with
  | addTree map pose =>
      refine ⟨?_, h.nextId⟩
      change (w.trees ++ [_]).length = r.treeCount + 1
      rw [List.length_append, h.treeCount]
      rfl
  | setTreePose tree pose =>
      exact h.keep ⟨modifyTree_length .., rfl⟩ ⟨rfl, rfl⟩
  | spawnLight tree pose light =>
      exact h.spawn (fun ht => by simp [World.perform, World.spawnLight, ht])
        fun t ht => by simp [World.perform, World.spawnLight, ht]
  | spawnOccluder tree pose occluder =>
      exact h.spawn (fun ht => by simp [World.perform, World.spawnOccluder, ht])
        fun t ht => by simp [World.perform, World.spawnOccluder, ht]
  | despawn entity =>
      exact h.keep ⟨despawn_trees_length .., despawn_nextId ..⟩ ⟨rfl, rfl⟩
  | adjust adjustment =>
      exact h.keep (adjust_frame ..) (roster_adjust_frame ..)
  | replaceOccluder entity occluder =>
      refine h.keep (modifyOccluder_frame ..) ?_
      simp only [Roster.perform]
      split <;> exact ⟨rfl, rfl⟩
  | setOccluderPose entity pose =>
      refine h.keep (setOccluderPose_frame ..) ?_
      simp only [Roster.perform]
      split <;> exact ⟨rfl, rfl⟩
  | flush =>
      exact h.keep ⟨List.length_map _, rfl⟩ ⟨rfl, rfl⟩

theorem Tallies.run (actions : List (Action K)) {w : World K} {r : Roster K}
    (h : Tallies w r) : Tallies (w.run actions).1 (r.run actions).1 := by
  induction actions generalizing w r with
  | nil =>
      exact h
  | cons action rest ih =>
      exact ih (h.perform action)

end Tallies

section Names

variable {K : Type} [Scalar K]

/-- An action that names an entity lists it and nothing else, under the next number. -/
theorem extended_of_spawned {w : World K} {action : Action K} {entity : EntityId}
    (h : (w.perform action).2 = .spawned (some entity)) :
    entity = ⟨w.nextId⟩ ∧ ∃ l s, w.Extended (w.perform action).1 l s ∧ s.entity = entity := by
  cases action with
  | spawnLight tree pose light =>
      cases ht : w.trees[tree.number]? with
      | none =>
          simp [perform, spawnLight, ht] at h
      | some t =>
          obtain rfl : ⟨w.nextId⟩ = entity := by
            simpa [perform, spawnLight, ht] using h
          exact ⟨rfl, _, _, spawnLight_extended ht pose light, rfl⟩
  | spawnOccluder tree pose occluder =>
      cases ht : w.trees[tree.number]? with
      | none =>
          simp [perform, spawnOccluder, ht] at h
      | some t =>
          obtain rfl : ⟨w.nextId⟩ = entity := by
            simpa [perform, spawnOccluder, ht] using h
          exact ⟨rfl, _, _, spawnOccluder_extended ht pose occluder, rfl⟩
  | adjust adjustment =>
      cases adjustment <;> simp [perform, adjust] at h
  | addTree map pose => simp [perform] at h
  | setTreePose tree pose => simp [perform] at h
  | despawn entity => simp [perform] at h
  | replaceOccluder entity occluder => simp [perform] at h
  | setOccluderPose entity pose => simp [perform] at h
  | flush => simp [perform] at h

/-- **The names of new entities.**  After a run of any length a new entity gets the number that
comes next when the numbers are gone through round after round.  In the first round it is the name
of no entity that is there, and nothing changes for any other entity. -/
theorem names_of_spawns (actions : List (Action K)) (action : Action K) (entity : EntityId)
    (h : ((((empty : World K).run actions).1).perform action).2 = .spawned (some entity)) :
    let w := ((empty : World K).run actions).1
    let named := ((Roster.empty : Roster K).run actions).1.spawned
    entity = Roster.entityAt (named % 4294967295) ∧
      (named < 4294967295 → w.location? entity = none ∧
        ∀ other, other ≠ entity → (w.perform action).1.listing? other = w.listing? other) := by
  intro w named
  have htallies : Tallies w ((Roster.empty : Roster K).run actions).1 :=
    Tallies.run actions ⟨rfl, rfl⟩
  obtain ⟨hname, l, s, hextended, hentity⟩ := extended_of_spawned h
  refine ⟨hname.trans htallies.nextId, ?_⟩
  intro hround
  have hmatches := (matches_empty.run actions hround).1
  refine ⟨?_, ?_⟩
  · refine Option.eq_none_iff_forall_ne_some.mpr ?_
    intro m hm
    obtain ⟨n, hn, hearlier⟩ := hmatches.issued hm
    have hsame := Roster.entityAt_injective hround (Nat.lt_trans hn hround)
      (hmatches.nextId.symm.trans (hname.symm.trans hearlier))
    exact Nat.ne_of_lt hn hsame.symm
  · intro other hother
    rw [hextended.listing? hmatches.consistent, hentity, if_neg hother]

theorem names_of_spawns_replacedFirst :
    let w := ((empty : World Float32).run replacedFirst).1
    let action := Action.spawnOccluder ⟨0⟩ Pose.identity Occluder.tile
    (w.perform action).2 = .spawned (some ⟨5⟩) ∧ w.location? ⟨5⟩ = none ∧
      (w.perform action).1.listing? ⟨4⟩ = w.listing? ⟨4⟩ := by
  intro w action
  have hspawned : (w.perform action).2 = .spawned (some ⟨5⟩) := rfl
  have hround : ((Roster.empty : Roster Float32).run replacedFirst).1.spawned < 4294967295 := by
    decide +kernel
  obtain ⟨hnew, hothers⟩ := (names_of_spawns replacedFirst action ⟨5⟩ hspawned).2 hround
  exact ⟨hspawned, hnew, hothers ⟨4⟩ (by decide)⟩

end Names

section Passing

variable {K : Type} [Scalar K]

theorem forget_of_unlisted {directory : List (EntityId × Location)} {e : EntityId}
    (h : directory.lookup e = none) : forget directory e = directory := by
  refine List.filter_eq_self.mpr ?_
  intro entry hentry
  have hne := List.lookup_eq_none_iff.mp h entry hentry
  rw [bne_iff_ne]
  rintro rfl
  simp at hne

theorem forget_record {directory : List (EntityId × Location)} {e : EntityId} {l : Location}
    (h : directory.lookup e = none) : forget (record directory e l) e = directory := by
  have hhead : forget (record directory e l) e = forget (forget directory e) e :=
    List.filter_cons_of_neg (by simp)
  rw [hhead, forget_of_unlisted h, forget_of_unlisted h]

theorem swapRemove_append_last {α : Type} (xs : List α) (x : α) :
    swapRemove (xs ++ [x]) xs.length = xs := by
  simp [swapRemove]

/-- A light that comes and goes leaves only the next number changed. -/
theorem despawn_spawnLight {w : World K} {tree : TreeId} {t : Tree K}
    (ht : w.trees[tree.number]? = some t) (hnew : w.location? ⟨w.nextId⟩ = none) (pose : Pose K)
    (light : Light K) :
    ((w.spawnLight tree pose light).1.despawn ⟨w.nextId⟩).1 =
      { w with nextId := numberAfter w.nextId } := by
  obtain ⟨hlt, hget⟩ := List.getElem?_eq_some_iff.mp ht
  have hlisted : (w.spawnLight tree pose light).1.location? ⟨w.nextId⟩ =
      some (.light tree.number t.lights.length) := by
    simp [spawnLight, ht, location?]
  have htree : (w.spawnLight tree pose light).1.trees[tree.number]? =
      some { t with lights := t.lights ++ [LightSlot.new ⟨w.nextId⟩ pose light] } := by
    simp only [spawnLight, ht]
    exact List.getElem?_set_self hlt
  rw [despawn_light hlisted htree]
  simp only [spawnLight, ht, swapRemove_append_last, List.getElem?_length, Option.map_none,
    recordMoved, List.set_set, forget_record hnew]
  rw [← hget, List.set_getElem_self]

/-- Lights that come and go one after the other, from the one that gets a number. -/
def passing (tree : TreeId) (pose : Pose K) (light : Light K) (first : Nat) :
    Nat → List (Action K)
  | 0 => []
  | n + 1 =>
    .spawnLight tree pose light :: .despawn (Roster.entityAt first) ::
      passing tree pose light (first + 1) n

/-- Entities that come and go leave nothing behind but the next number, as long as none of their
names is the name of an entity that is there. -/
theorem run_passing {tree : TreeId} (pose : Pose K) (light : Light K) (n : Nat) {first : Nat}
    {w : World K} {t : Tree K} (ht : w.trees[tree.number]? = some t)
    (hnext : w.nextId = (Roster.entityAt (first % 4294967295)).number)
    (hfits : first + n ≤ 4294967295)
    (hnew : ∀ k, first ≤ k → k < first + n → w.location? (Roster.entityAt k) = none) :
    (w.run (passing tree pose light first n)).1 =
      { w with nextId := (Roster.entityAt ((first + n) % 4294967295)).number } := by
  induction n generalizing first w with
  | zero =>
      rw [Nat.add_zero, ← hnext]
      rfl
  | succ n ih =>
      have hname : (⟨w.nextId⟩ : EntityId) = Roster.entityAt first := by
        rw [hnext, Nat.mod_eq_of_lt (by omega)]
      have hfree : w.location? ⟨w.nextId⟩ = none := by
        rw [hname]
        exact hnew first (Nat.le_refl _) (by omega)
      have hafter : numberAfter w.nextId =
          (Roster.entityAt ((first + 1) % 4294967295)).number := by
        rw [hnext]
        exact congrArg EntityId.number (numberAfter_entityAt first)
      have hrest : (({ w with nextId := numberAfter w.nextId } : World K).run
          (passing tree pose light (first + 1) n)).1 =
            { w with nextId := (Roster.entityAt ((first + 1 + n) % 4294967295)).number } :=
        ih ht hafter (by omega) fun k hk hk' => hnew k (by omega) (by omega)
      have hpair := despawn_spawnLight ht hfree pose light
      rw [passing, run_cons_fst, run_cons_fst, ← hname, Nat.add_comm n 1, ← Nat.add_assoc, ← hrest,
        ← hpair]
      rfl

/-- A lamp that stays while other lights use up all other numbers. -/
def lastingLamp : List (Action Float32) :=
  .addTree ⟨1⟩ Pose.identity :: .spawnLight ⟨0⟩ Pose.identity Light.standard ::
    passing ⟨0⟩ Pose.identity Light.standard 1 4294967294

/-- A world with the lamp alone. -/
def lampWorld : World Float32 :=
  (((empty : World Float32).perform (.addTree ⟨1⟩ Pose.identity)).1.perform
    (.spawnLight ⟨0⟩ Pose.identity Light.standard)).1

theorem location?_lampWorld {k : Nat} (hlow : 1 ≤ k) (hhigh : k < 4294967295) :
    lampWorld.location? (Roster.entityAt k) = none := by
  have hother : Roster.entityAt k ≠ Roster.entityAt 0 := by
    intro hsame
    have hzero := Roster.entityAt_injective hhigh (by omega) hsame
    omega
  change List.lookup (Roster.entityAt k) [(Roster.entityAt 0, Location.light 0 0)] = none
  rw [List.lookup_cons, beq_false_of_ne hother]
  rfl

theorem run_lastingLamp :
    ((empty : World Float32).run lastingLamp).1 = { lampWorld with nextId := 1 } := by
  obtain ⟨t, ht⟩ : ∃ t, lampWorld.trees[(TreeId.mk 0).number]? = some t := ⟨_, rfl⟩
  have hfits : 1 + 4294967294 ≤ 4294967295 := by
    omega
  have hpassed := run_passing Pose.identity Light.standard 4294967294 ht rfl hfits
    fun k hlow hhigh => location?_lampWorld hlow (Nat.lt_of_lt_of_le hhigh hfits)
  have hround : (1 + 4294967294) % 4294967295 = 0 := by
    omega
  rw [hround] at hpassed
  rw [lastingLamp, run_cons_fst, run_cons_fst]
  exact hpassed

/-- The next light gets the name of the lamp.  The lamp is listed as before, but nothing leads to
it. -/
theorem lastingLamp_renamed :
    let w := ((empty : World Float32).run lastingLamp).1
    let action := Action.spawnLight ⟨0⟩ Pose.identity Light.standard
    w.location? ⟨1⟩ = some (.light 0 0) ∧
      (w.perform action).2 = .spawned (some ⟨1⟩) ∧
      (w.perform action).1.location? ⟨1⟩ = some (.light 0 1) ∧
      (w.perform action).1.slotAt? (.light 0 0) = w.slotAt? (.light 0 0) := by
  rw [run_lastingLamp]
  exact ⟨rfl, rfl, rfl, rfl⟩

end Passing

end World
end Penumbra
