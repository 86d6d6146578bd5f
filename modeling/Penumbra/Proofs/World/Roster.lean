import Mathlib.Data.List.Nodup
import Mathlib.Logic.Function.Basic
import Penumbra.Numeric.Single
import Penumbra.Proofs.World.Action
import Penumbra.Proofs.World.Operations

/-!
# A world is a roster

A roster knows of each entity its tree, its place inside the tree, and its light or its wall, and
nothing else: it has no lists, no places and no directory.  A world answers like a roster, whatever
a caller does, as long as the numbers of entities do not run out.

**Results**

* `Roster`, `Roster.perform`, `Roster.run`: the roster and what a caller does with it.
* `Matches`: a world and a roster know the same.
* `Matches.perform`: each action keeps that and gives the same answer.
* `run_matches_roster`: so does each run, and removing an entity touches no other one.
-/

namespace Penumbra

/-- The light or the wall of an entity. -/
inductive Part (K : Type) where
  | light (light : Light K)
  | occluder (occluder : Occluder K)
deriving Repr, Inhabited

/-- All that is known of an entity. -/
structure Resident (K : Type) where
  tree : Nat
  pose : Pose K
  part : Part K
deriving Repr, Inhabited

/-- A map from entities to what is known of them, and how many there have been. -/
structure Roster (K : Type) where
  treeCount : Nat
  spawned : Nat
  residents : EntityId → Option (Resident K)

namespace Resident

variable {K : Type}

/-- Whether the entity has a light that waits for a flush. -/
def isQueued (r : Resident K) : Bool :=
  match r.part with
  | .light light => light.updateQueued
  | .occluder _ => false

def light? (r : Resident K) : Option (Light K) :=
  match r.part with
  | .light light => some light
  | .occluder _ => none

def occluder? (r : Resident K) : Option (Occluder K) :=
  match r.part with
  | .light _ => none
  | .occluder occluder => some occluder

def settled (r : Resident K) : Resident K :=
  match r.part with
  | .light light => { r with part := .light { light with updateQueued := false } }
  | .occluder _ => r

end Resident

namespace Roster

variable {K : Type} [Scalar K]

def empty : Roster K := ⟨0, 0, fun _ => none⟩

/-- The entity that is named after a number of others. -/
def entityAt (n : Nat) : EntityId := ⟨UInt32.ofNat (n + 1)⟩

/-- The roster with other knowledge of one entity. -/
def put (r : Roster K) (e : EntityId) (resident : Option (Resident K)) : Roster K :=
  { r with residents := Function.update r.residents e resident }

/-- Names an entity; an unknown tree takes none. -/
def spawn (r : Roster K) (tree : TreeId) (pose : Pose K) (part : Part K) :
    Roster K × World.Answer K :=
  if tree.number < r.treeCount then
    ({ r.put (entityAt r.spawned) (some ⟨tree.number, pose, part⟩) with spawned := r.spawned + 1 },
      .spawned (some (entityAt r.spawned)))
  else (r, .spawned none)

/-- Makes a change of a light, or moves its entity. -/
def adjust (r : Roster K) : World.Adjustment K → Roster K × World.Answer K
  | .change entity change =>
    match r.residents entity with
    | some ⟨tree, pose, .light light⟩ =>
      (r.put entity (some ⟨tree, pose, .light (change.apply light).1⟩),
        .changed (some (change.apply light).2))
    | _ => (r, .changed none)
  | .move entity pose =>
    match r.residents entity with
    | some ⟨tree, _, .light light⟩ =>
      (r.put entity (some ⟨tree, pose, .light { light with updateQueued := true }⟩), .told true)
    | _ => (r, .told false)

/-- Number of lights that wait for a flush. -/
def queuedCount (r : Roster K) : Nat :=
  ((List.range r.spawned).map entityAt).countP fun e => (r.residents e).any Resident.isQueued

/-- Does what a caller asks for. -/
def perform (r : Roster K) : World.Action K → Roster K × World.Answer K
  | .addTree _ _ => ({ r with treeCount := r.treeCount + 1 }, .tree ⟨r.treeCount⟩)
  | .setTreePose _ _ => (r, .done)
  | .spawnLight tree pose light => r.spawn tree pose (.light { light with updateQueued := false })
  | .spawnOccluder tree pose occluder => r.spawn tree pose (.occluder occluder)
  | .despawn entity => (r.put entity none, .told (r.residents entity).isSome)
  | .adjust adjustment => r.adjust adjustment
  | .replaceOccluder entity occluder =>
    match r.residents entity with
    | some ⟨tree, pose, .occluder before⟩ =>
      (r.put entity (some ⟨tree, pose, .occluder occluder⟩), .replaced (some before))
    | _ => (r, .replaced none)
  | .setOccluderPose entity pose =>
    match r.residents entity with
    | some ⟨tree, _, .occluder occluder⟩ =>
      (r.put entity (some ⟨tree, pose, .occluder occluder⟩), .told true)
    | _ => (r, .told false)
  | .flush =>
    ({ r with residents := fun e => (r.residents e).map Resident.settled }, .counted r.queuedCount)

/-- Does one thing after the other. -/
def run (r : Roster K) : List (World.Action K) → Roster K × List (World.Answer K)
  | [] => (r, [])
  | action :: rest =>
    let (r', answer) := r.perform action
    let (r'', answers) := r'.run rest
    (r'', answer :: answers)

/-- Numbers of entities do not repeat as long as they fit. -/
theorem entityAt_injective {m n : Nat} (hm : m < 4294967295) (hn : n < 4294967295)
    (h : entityAt m = entityAt n) : m = n := by
  have h' : (UInt32.ofNat (m + 1)).toNat = (UInt32.ofNat (n + 1)).toNat :=
    congrArg (fun e : EntityId => e.number.toNat) h
  rw [UInt32.toNat_ofNat', UInt32.toNat_ofNat'] at h'
  omega

theorem spawned_le_perform (r : Roster K) (action : World.Action K) :
    r.spawned ≤ (r.perform action).1.spawned := by
  cases action with
  | addTree map pose => exact Nat.le_refl _
  | setTreePose tree pose => exact Nat.le_refl _
  | spawnLight tree pose light =>
      simp only [perform, spawn]
      split <;> simp
  | spawnOccluder tree pose occluder =>
      simp only [perform, spawn]
      split <;> simp
  | despawn entity => exact Nat.le_refl _
  | adjust adjustment =>
      cases adjustment <;> simp only [perform, adjust] <;> split <;> exact Nat.le_refl _
  | replaceOccluder entity occluder =>
      simp only [perform]
      split <;> exact Nat.le_refl _
  | setOccluderPose entity pose =>
      simp only [perform]
      split <;> exact Nat.le_refl _
  | flush => exact Nat.le_refl _

theorem spawned_le_run (r : Roster K) (actions : List (World.Action K)) :
    r.spawned ≤ (r.run actions).1.spawned := by
  induction actions generalizing r with
  | nil =>
      exact Nat.le_refl _
  | cons action rest ih =>
      exact Nat.le_trans (r.spawned_le_perform action) (ih _)

end Roster

namespace Slot

variable {K : Type}

/-- What a roster knows of a slot. -/
def resident (tree : Nat) : Slot K → Resident K
  | light slot => ⟨tree, slot.pose, .light slot.light⟩
  | occluder slot => ⟨tree, slot.pose, .occluder slot.occluder⟩

end Slot

namespace World

section Residents

variable {K : Type}

/-- What a roster knows of an entity of a world. -/
def resident? (w : World K) (e : EntityId) : Option (Resident K) :=
  (w.listing? e).map fun x => x.2.resident x.1

/-- An entity is unknown, or the directory leads to its light, or to its wall. -/
theorem Consistent.resident?_cases {w : World K} (hw : w.Consistent) (e : EntityId) :
    (w.location? e = none ∧ w.resident? e = none) ∨
    (∃ i p s, w.location? e = some (.light i p) ∧ w.lightSlot? e = some s ∧
      w.listing? e = some (i, .light s)) ∨
    (∃ i p s, w.location? e = some (.occluder i p) ∧ w.occluderSlot? e = some s ∧
      w.listing? e = some (i, .occluder s)) := by
  cases hl : w.location? e with
  | none =>
      exact Or.inl ⟨rfl, by simp [resident?, listing?, hl]⟩
  | some l =>
      right
      obtain ⟨slot, hslot, -⟩ := hw.slot_of_location hl
      have hlisting := listing?_of_location? hl
      rw [hslot] at hlisting
      obtain ⟨t, ht, hslot⟩ := tree_of_slotAt? hslot
      cases l with
      | light i p =>
          obtain ⟨s, hs, rfl⟩ := Option.map_eq_some_iff.mp hslot
          have ht : w.trees[i]? = some t := ht
          exact Or.inl ⟨i, p, s, rfl, by simp [lightSlot?, hl, ht, hs], hlisting⟩
      | occluder i p =>
          obtain ⟨s, hs, rfl⟩ := Option.map_eq_some_iff.mp hslot
          have ht : w.trees[i]? = some t := ht
          exact Or.inr ⟨i, p, s, rfl, by simp [occluderSlot?, hl, ht, hs], hlisting⟩

/-- A light is in some tree exactly if the directory leads its own entity to it. -/
theorem Consistent.mem_lights {w : World K} (hw : w.Consistent) {s : LightSlot K} :
    s ∈ w.trees.flatMap (·.lights) ↔
      ∃ i p, w.location? s.entity = some (.light i p) ∧
        w.listing? s.entity = some (i, .light s) := by
  constructor
  · intro hs
    obtain ⟨t, ht, hs⟩ := List.mem_flatMap.mp hs
    obtain ⟨i, hi⟩ := List.getElem?_of_mem ht
    obtain ⟨p, hp⟩ := List.getElem?_of_mem hs
    have hslot : w.slotAt? (.light i p) = some (.light s) := by
      simp [slotAt?, Tree.slotAt?, Location.tree, hi, hp]
    have hl : w.location? s.entity = some (.light i p) := hw.location_of_slot hslot
    refine ⟨i, p, hl, ?_⟩
    rw [listing?_of_location? hl, hslot]
    rfl
  · rintro ⟨i, p, hl, hlisting⟩
    obtain ⟨slot, hslot, -⟩ := hw.slot_of_location hl
    rw [listing?_of_location? hl, hslot] at hlisting
    cases hlisting
    obtain ⟨t, ht, hslot⟩ := tree_of_slotAt? hslot
    obtain ⟨s', hs', hsame⟩ := Option.map_eq_some_iff.mp hslot
    cases hsame
    exact List.mem_flatMap.mpr ⟨t, List.mem_of_getElem? ht, List.mem_of_getElem? hs'⟩

/-- No two lights are of one entity. -/
theorem Consistent.lights_nodup {w : World K} (hw : w.Consistent) :
    ((w.trees.flatMap (·.lights)).map (·.entity)).Nodup := by
  have hplaces : ∀ {i j p q : Nat} {t u : Tree K} {a b : LightSlot K},
      w.trees[i]? = some t → w.trees[j]? = some u → t.lights[p]? = some a →
      u.lights[q]? = some b → a.entity = b.entity → i = j ∧ p = q := by
    intro i j p q t u a b ht hu ha hb hab
    have ha' : w.slotAt? (.light i p) = some (.light a) := by
      simp [slotAt?, Tree.slotAt?, Location.tree, ht, ha]
    have hb' : w.slotAt? (.light j q) = some (.light b) := by
      simp [slotAt?, Tree.slotAt?, Location.tree, hu, hb]
    have h := hw.eq_of_entity_eq ha' hb' hab
    cases h
    exact ⟨rfl, rfl⟩
  rw [List.map_flatMap, List.nodup_flatMap]
  constructor
  · intro t ht
    obtain ⟨i, hi⟩ := List.getElem?_of_mem ht
    rw [List.nodup_iff_getElem?_ne_getElem?]
    intro p q hpq hq heq
    rw [List.length_map] at hq
    have hp : p < t.lights.length := by
      omega
    simp only [List.getElem?_map, List.getElem?_eq_getElem hp, List.getElem?_eq_getElem hq,
      Option.map_some, Option.some.injEq] at heq
    have h := hplaces hi hi (List.getElem?_eq_getElem hp) (List.getElem?_eq_getElem hq) heq
    omega
  · rw [List.pairwise_iff_getElem]
    intro i j hi hj hij e he he'
    obtain ⟨a, ha, rfl⟩ := List.mem_map.mp he
    obtain ⟨b, hb, hab⟩ := List.mem_map.mp he'
    obtain ⟨p, hp⟩ := List.getElem?_of_mem ha
    obtain ⟨q, hq⟩ := List.getElem?_of_mem hb
    have h := hplaces (List.getElem?_eq_getElem hi) (List.getElem?_eq_getElem hj) hp hq hab.symm
    omega

end Residents

section Matches

variable {K : Type}

/-- A world and a roster know the same, and will give the next entity the same name. -/
structure Matches (w : World K) (r : Roster K) : Prop where
  consistent : w.Consistent
  treeCount : w.trees.length = r.treeCount
  nextId : (⟨w.nextId⟩ : EntityId) = Roster.entityAt r.spawned
  issued : ∀ {e l}, w.location? e = some l → ∃ n, n < r.spawned ∧ e = Roster.entityAt n
  residents : ∀ e, w.resident? e = r.residents e

theorem matches_empty : Matches (empty : World K) Roster.empty where
  consistent :=
    { slot_of_location := fun h => by simp [location?, empty] at h
      location_of_slot := fun h => by simp [slotAt?, empty] at h }
  treeCount := rfl
  nextId := rfl
  issued h := by
    simp [location?, empty] at h
  residents _ := rfl

/-- The three ways in which an entity may be known, to a world and to a roster alike. -/
theorem Matches.cases {w : World K} {r : Roster K} (h : Matches w r) (e : EntityId) :
    (w.location? e = none ∧ r.residents e = none) ∨
    (∃ i p s, w.location? e = some (.light i p) ∧ w.lightSlot? e = some s ∧
      w.listing? e = some (i, .light s) ∧ r.residents e = some ⟨i, s.pose, .light s.light⟩) ∨
    (∃ i p s, w.location? e = some (.occluder i p) ∧ w.occluderSlot? e = some s ∧
      w.listing? e = some (i, .occluder s) ∧
      r.residents e = some ⟨i, s.pose, .occluder s.occluder⟩) := by
  have hr := h.residents e
  rcases h.consistent.resident?_cases e with
    ⟨hl, hnone⟩ | ⟨i, p, s, hl, hslot, hlisting⟩ | ⟨i, p, s, hl, hslot, hlisting⟩
  · exact Or.inl ⟨hl, by rw [← hr, hnone]⟩
  · refine Or.inr (Or.inl ⟨i, p, s, hl, hslot, hlisting, ?_⟩)
    rw [← hr, resident?, hlisting]
    rfl
  · refine Or.inr (Or.inr ⟨i, p, s, hl, hslot, hlisting, ?_⟩)
    rw [← hr, resident?, hlisting]
    rfl

/-- Slots that are changed where they are change what is known of their entities and no more. -/
theorem Matches.rework {w w' : World K} {r : Roster K} (h : Matches w r)
    {f : Location → Slot K → Slot K} (hw' : w.Reworked w' f)
    (htrees : w'.trees.length = w.trees.length) (hnext : w'.nextId = w.nextId)
    {residents : EntityId → Option (Resident K)} (hresidents : ∀ e, w'.resident? e = residents e) :
    Matches w' { r with residents := residents } where
  consistent := hw'.consistent h.consistent
  treeCount := htrees.trans h.treeCount
  nextId := by
    rw [hnext]
    exact h.nextId
  issued hl := by
    rw [hw'.location?] at hl
    exact h.issued hl
  residents := hresidents

theorem modifyTree_length (w : World K) (i : Nat) (g : Tree K → Tree K) :
    (w.modifyTree i g).trees.length = w.trees.length :=
  List.length_modify ..

theorem Matches.modifyLight {w : World K} {r : Roster K} (h : Matches w r) {e : EntityId}
    {i : Nat} {s : LightSlot K} (hs : w.listing? e = some (i, .light s))
    {f : LightSlot K → LightSlot K} (hf : ∀ s, (f s).entity = s.entity) :
    Matches (w.modifyLight e f) (r.put e (some ⟨i, (f s).pose, .light (f s).light⟩)) := by
  have hrework := w.modifyLight_reworked e hf
  have htrees : (w.modifyLight e f).trees.length = w.trees.length := by
    unfold World.modifyLight
    split
    · exact modifyTree_length ..
    · rfl
  have hnext : (w.modifyLight e f).nextId = w.nextId := by
    unfold World.modifyLight
    split <;> rfl
  refine h.rework hrework htrees hnext ?_
  intro e'
  rw [resident?, hrework.listing?_of_listed h.consistent, Function.update_apply, ← h.residents]
  by_cases he : e' = e
  · simp [he, hs, Slot.mapLight, Slot.resident]
  · simp [he, resident?]

theorem Matches.modifyOccluder {w : World K} {r : Roster K} (h : Matches w r) {e : EntityId}
    {i : Nat} {s : OccluderSlot K} (hs : w.listing? e = some (i, .occluder s))
    {f : OccluderSlot K → OccluderSlot K} (hf : ∀ s, (f s).entity = s.entity) :
    Matches (w.modifyOccluder e f)
      (r.put e (some ⟨i, (f s).pose, .occluder (f s).occluder⟩)) := by
  have hrework := w.modifyOccluder_reworked e hf
  have htrees : (w.modifyOccluder e f).trees.length = w.trees.length := by
    unfold World.modifyOccluder
    split
    · exact modifyTree_length ..
    · rfl
  have hnext : (w.modifyOccluder e f).nextId = w.nextId := by
    unfold World.modifyOccluder
    split <;> rfl
  refine h.rework hrework htrees hnext ?_
  intro e'
  rw [resident?, hrework.listing?_of_listed h.consistent, Function.update_apply, ← h.residents]
  by_cases he : e' = e
  · simp [he, hs, Slot.mapOccluder, Slot.resident]
  · simp [he, resident?]

theorem numberAfter_ofNat {n : Nat} (h : n + 1 < 4294967295) :
    (⟨numberAfter (UInt32.ofNat (n + 1))⟩ : EntityId) = Roster.entityAt (n + 1) := by
  have hne : UInt32.ofNat (n + 1) + 1 ≠ 0 := by
    intro hzero
    have hval := congrArg UInt32.toNat hzero
    rw [UInt32.toNat_add, UInt32.toNat_ofNat'] at hval
    simp at hval
    omega
  have hsucc : UInt32.ofNat (n + 1) + 1 = UInt32.ofNat (n + 1 + 1) := by
    apply UInt32.toNat_inj.mp
    simp
  rw [Roster.entityAt, numberAfter, if_neg hne, hsucc]

/-- A new slot makes a new entity known. -/
theorem Matches.extend {w w' : World K} {r : Roster K} (h : Matches w r) {l : Location}
    {s : Slot K} (hw' : w.Extended w' l s) (hs : s.entity = ⟨w.nextId⟩)
    (htrees : w'.trees.length = w.trees.length) (hnext : w'.nextId = numberAfter w.nextId)
    (hspawned : r.spawned + 1 < 4294967295) :
    Matches w' { r.put (Roster.entityAt r.spawned) (some (s.resident l.tree)) with
      spawned := r.spawned + 1 } := by
  have hentity : s.entity = Roster.entityAt r.spawned := hs.trans h.nextId
  have hnew : w.location? s.entity = none := by
    cases hl : w.location? s.entity with
    | none =>
        rfl
    | some m =>
        obtain ⟨n, hn, he⟩ := h.issued hl
        have heq := Roster.entityAt_injective (by omega) (by omega) (hentity.symm.trans he)
        omega
  exact
    { consistent := hw'.consistent h.consistent hnew
      treeCount := htrees.trans h.treeCount
      nextId := by
        have hid : w.nextId = UInt32.ofNat (r.spawned + 1) :=
          congrArg EntityId.number h.nextId
        rw [hnext, hid]
        exact numberAfter_ofNat hspawned
      issued := by
        intro e m hm
        rw [hw'.location?] at hm
        by_cases he : e = s.entity
        · exact ⟨r.spawned, Nat.lt_succ_self _, he.trans hentity⟩
        · rw [if_neg he] at hm
          obtain ⟨n, hn, hen⟩ := h.issued hm
          exact ⟨n, Nat.lt_succ_of_lt hn, hen⟩
      residents := by
        intro e
        simp only [Roster.put]
        rw [resident?, hw'.listing? h.consistent, Function.update_apply, ← h.residents, hentity]
        by_cases he : e = Roster.entityAt r.spawned
        · simp [he]
        · simp [he, resident?] }

theorem despawn_trees_length [Scalar K] (w : World K) (e : EntityId) :
    (w.despawn e).1.trees.length = w.trees.length := by
  rcases he : w.location? e with _ | ⟨i, p⟩ | ⟨i, p⟩
  · simp [World.despawn, he]
  · cases ht : w.trees[i]? <;> simp [World.despawn, he, ht]
  · cases ht : w.trees[i]? <;> simp [World.despawn, he, ht]

theorem despawn_nextId [Scalar K] (w : World K) (e : EntityId) :
    (w.despawn e).1.nextId = w.nextId := by
  rcases he : w.location? e with _ | ⟨i, p⟩ | ⟨i, p⟩
  · simp [World.despawn, he]
  · cases ht : w.trees[i]? <;> simp [World.despawn, he, ht]
  · cases ht : w.trees[i]? <;> simp [World.despawn, he, ht]

theorem isSome_resident? {w : World K} (hw : w.Consistent) (e : EntityId) :
    (w.resident? e).isSome = (w.location? e).isSome := by
  rcases hw.resident?_cases e with ⟨hl, hr⟩ | ⟨i, p, s, hl, -, hr⟩ | ⟨i, p, s, hl, -, hr⟩
  · rw [hl, hr]
    rfl
  · simp [resident?, hl, hr]
  · simp [resident?, hl, hr]

theorem Matches.despawn [Scalar K] {w : World K} {r : Roster K} (h : Matches w r) (e : EntityId) :
    Matches (w.despawn e).1 (r.put e none) ∧
      (w.despawn e).2 = (r.residents e).isSome := by
  have hanswer : (w.despawn e).2 = (r.residents e).isSome := by
    rw [despawn_snd, ← h.residents, isSome_resident? h.consistent]
  refine ⟨?_, hanswer⟩
  cases hl : w.location? e with
  | none =>
      have hnone : r.residents e = none := by
        have hisSome := isSome_resident? h.consistent e
        rw [hl, h.residents] at hisSome
        simpa using hisSome
      rw [despawn_of_unlisted hl, Roster.put, ← hnone, Function.update_eq_self]
      exact h
  | some l =>
      obtain ⟨last, s, hvacated⟩ := despawn_vacated h.consistent.reliable hl
      exact
        { consistent := hvacated.consistent h.consistent
          treeCount := (despawn_trees_length w e).trans h.treeCount
          nextId := by
            rw [despawn_nextId]
            exact h.nextId
          issued := by
            intro e' m hm
            rw [hvacated.location?] at hm
            by_cases hmoves : l ≠ last ∧ e' = s.entity
            · have hlast := h.consistent.location_of_slot hvacated.moved
              rw [← hmoves.2] at hlast
              exact h.issued hlast
            · rw [if_neg hmoves] at hm
              by_cases he : e' = e
              · simp [he] at hm
              · rw [if_neg he] at hm
                exact h.issued hm
          residents := by
            intro e'
            simp only [Roster.put]
            rw [resident?, hvacated.listing? h.consistent, Function.update_apply, ← h.residents]
            by_cases he : e' = e
            · simp [he]
            · simp [he, resident?] }

theorem resident_noticed [Scalar K] (tree : Nat) (s : Slot K) :
    (s.mapLight noticed).resident tree = (s.resident tree).settled := by
  cases s with
  | light slot =>
      obtain ⟨entity, light, pose, inTree, bounds⟩ := slot
      cases hq : light.updateQueued with
      | true =>
          simp [Slot.mapLight, Slot.resident, Resident.settled, noticed, hq, LightSlot.refresh]
      | false =>
          have hsame : { light with updateQueued := false } = light := by
            rw [← hq]
          simp [Slot.mapLight, Slot.resident, Resident.settled, noticed, hq, hsame]
  | occluder slot =>
      rfl

/-- The lights that wait for a flush are those of the entities that a roster counts. -/
theorem Matches.queuedCount [Scalar K] {w : World K} {r : Roster K} (h : Matches w r)
    (hspawned : r.spawned < 4294967295) : w.queuedCount = r.queuedCount := by
  let waiting := ((w.trees.flatMap (·.lights)).filter fun s => s.light.updateQueued).map (·.entity)
  let counted := ((List.range r.spawned).map Roster.entityAt).filter
    fun e => (r.residents e).any Resident.isQueued
  have hwaiting : waiting.Nodup :=
    h.consistent.lights_nodup.sublist (List.filter_sublist.map _)
  have hcounted : counted.Nodup := by
    refine List.Nodup.filter _ (List.Nodup.map_on ?_ List.nodup_range)
    intro m hm n hn hmn
    rw [List.mem_range] at hm hn
    exact Roster.entityAt_injective (by omega) (by omega) hmn
  have hmem : ∀ e, e ∈ waiting ↔ e ∈ counted := by
    intro e
    constructor
    · intro he
      obtain ⟨s, hs, rfl⟩ := List.mem_map.mp he
      obtain ⟨hs, hqueued⟩ := List.mem_filter.mp hs
      obtain ⟨i, p, hl, hlisting⟩ := h.consistent.mem_lights.mp hs
      have hr : r.residents s.entity = some ⟨i, s.pose, .light s.light⟩ := by
        rw [← h.residents, resident?, hlisting]
        rfl
      obtain ⟨n, hn, hen⟩ := h.issued hl
      refine List.mem_filter.mpr ⟨?_, ?_⟩
      · rw [hen]
        exact List.mem_map_of_mem (List.mem_range.mpr hn)
      · simpa [hr, Resident.isQueued] using hqueued
    · intro he
      have hqueued := (List.mem_filter.mp he).2
      rcases h.cases e with ⟨-, hr⟩ | ⟨i, p, s, hl, -, hlisting, hr⟩ | ⟨i, p, s, -, -, -, hr⟩
      · simp [hr] at hqueued
      · have hlight : s.light.updateQueued = true := by
          simpa [hr, Resident.isQueued] using hqueued
        have hentity : s.entity = e := h.consistent.entity_of_listing? hlisting
        subst hentity
        have hs := h.consistent.mem_lights.mpr ⟨i, p, hl, hlisting⟩
        exact List.mem_map.mpr ⟨s, List.mem_filter.mpr ⟨hs, hlight⟩, rfl⟩
      · simp [hr, Resident.isQueued] at hqueued
  have hperm : waiting.Perm counted := (List.perm_ext_iff_of_nodup hwaiting hcounted).mpr hmem
  have hlength := hperm.length_eq
  rw [List.length_map] at hlength
  rw [World.queuedCount, Roster.queuedCount, List.countP_eq_length_filter]
  exact hlength

theorem Matches.flush [Scalar K] {w : World K} {r : Roster K} (h : Matches w r) :
    Matches w.flush.1 { r with residents := fun e => (r.residents e).map Resident.settled } := by
  refine h.rework w.flush_reworked (List.length_map ..) rfl ?_
  intro e
  rw [resident?, w.flush_reworked.listing?, ← h.residents, resident?, listing?]
  cases w.location? e with
  | none =>
      rfl
  | some l =>
      cases hs : w.slotAt? l with
      | none => simp [hs]
      | some s => simp [hs, resident_noticed]

theorem Matches.adjust [Scalar K] {w : World K} {r : Roster K} (h : Matches w r)
    (adjustment : Adjustment K) :
    Matches (w.adjust adjustment).1 (r.adjust adjustment).1 ∧
      (w.adjust adjustment).2 = (r.adjust adjustment).2 := by
  cases adjustment with
  | change e change =>
      rcases h.cases e with ⟨hl, hr⟩ | ⟨i, p, s, hl, hslot, hlisting, hr⟩ | ⟨i, p, s, hl, -, -, hr⟩
      · have hslot : w.lightSlot? e = none := by
          simp [lightSlot?, hl]
        simp only [World.adjust, changeLight, light?, hslot, Option.map_none, Roster.adjust, hr]
        exact ⟨h, rfl⟩
      · simp only [World.adjust, changeLight, light?, hslot, Option.map_some, Roster.adjust, hr]
        exact ⟨h.modifyLight hlisting fun _ => rfl, rfl⟩
      · have hslot : w.lightSlot? e = none := by
          simp [lightSlot?, hl]
        simp only [World.adjust, changeLight, light?, hslot, Option.map_none, Roster.adjust, hr]
        exact ⟨h, rfl⟩
  | move e pose =>
      rcases h.cases e with ⟨hl, hr⟩ | ⟨i, p, s, hl, -, hlisting, hr⟩ | ⟨i, p, s, hl, -, -, hr⟩
      · simp only [World.adjust, setLightPose, hl, Roster.adjust, hr]
        exact ⟨h, rfl⟩
      · simp only [World.adjust, setLightPose, hl, Roster.adjust, hr]
        exact ⟨h.modifyLight hlisting fun _ => rfl, rfl⟩
      · simp only [World.adjust, setLightPose, hl, Roster.adjust, hr]
        exact ⟨h, rfl⟩

theorem Matches.addTree [Scalar K] {w : World K} {r : Roster K} (h : Matches w r)
    (map : MapId) (pose : Pose K) :
    Matches (w.addTree map pose).1 { r with treeCount := r.treeCount + 1 } where
  consistent := (w.addTree_reworked map pose).consistent h.consistent
  treeCount := by
    rw [← h.treeCount]
    exact List.length_append
  nextId := h.nextId
  issued hl := h.issued hl
  residents e := by
    rw [resident?, (w.addTree_reworked map pose).listing?, ← h.residents]
    rfl

theorem Matches.replaceOccluder [Scalar K] {w : World K} {r : Roster K} (h : Matches w r)
    (e : EntityId) (occluder : Occluder K) :
    Matches (w.replaceOccluder e occluder) (r.perform (.replaceOccluder e occluder)).1 ∧
      .replaced (w.occluder? e) = (r.perform (.replaceOccluder e occluder)).2 := by
  rcases h.cases e with ⟨hl, hr⟩ | ⟨i, p, s, hl, -, -, hr⟩ | ⟨i, p, s, hl, hslot, hlisting, hr⟩
  · have hslot : w.occluderSlot? e = none := by
      simp [occluderSlot?, hl]
    simp only [World.replaceOccluder, World.modifyOccluder, hl, occluder?, hslot, Option.map_none,
      Roster.perform, hr]
    exact ⟨h, trivial⟩
  · have hslot : w.occluderSlot? e = none := by
      simp [occluderSlot?, hl]
    simp only [World.replaceOccluder, World.modifyOccluder, hl, occluder?, hslot, Option.map_none,
      Roster.perform, hr]
    exact ⟨h, trivial⟩
  · simp only [World.replaceOccluder, occluder?, hslot, Option.map_some, Roster.perform, hr]
    exact ⟨h.modifyOccluder hlisting fun _ => rfl, trivial⟩

theorem Matches.setOccluderPose [Scalar K] {w : World K} {r : Roster K} (h : Matches w r)
    (e : EntityId) (pose : Pose K) :
    Matches (w.setOccluderPose e pose).1 (r.perform (.setOccluderPose e pose)).1 ∧
      .told (w.setOccluderPose e pose).2 = (r.perform (.setOccluderPose e pose)).2 := by
  rcases h.cases e with ⟨hl, hr⟩ | ⟨i, p, s, hl, -, -, hr⟩ | ⟨i, p, s, hl, -, hlisting, hr⟩
  · simp only [World.setOccluderPose, hl, Roster.perform, hr]
    exact ⟨h, trivial⟩
  · simp only [World.setOccluderPose, hl, Roster.perform, hr]
    exact ⟨h, trivial⟩
  · simp only [World.setOccluderPose, hl, Roster.perform, hr]
    exact ⟨h.modifyOccluder hlisting fun _ => rfl, trivial⟩

theorem Matches.spawnLight [Scalar K] {w : World K} {r : Roster K} (h : Matches w r)
    (tree : TreeId) (pose : Pose K) (light : Light K)
    (hspawned : (r.perform (.spawnLight tree pose light)).1.spawned < 4294967295) :
    Matches (w.spawnLight tree pose light).1 (r.perform (.spawnLight tree pose light)).1 ∧
      .spawned (w.spawnLight tree pose light).2 =
        (r.perform (.spawnLight tree pose light)).2 := by
  cases ht : w.trees[tree.number]? with
  | none =>
      have hunknown : ¬tree.number < r.treeCount := by
        rw [← h.treeCount]
        exact Nat.not_lt.mpr (List.getElem?_eq_none_iff.mp ht)
      simp only [World.spawnLight, ht, Roster.perform, Roster.spawn, hunknown, if_false]
      exact ⟨h, trivial⟩
  | some t =>
      have hknown : tree.number < r.treeCount := by
        rw [← h.treeCount]
        exact (List.getElem?_eq_some_iff.mp ht).1
      simp only [Roster.perform, Roster.spawn, hknown, if_true] at hspawned ⊢
      have hstate := h.extend (spawnLight_extended ht pose light) rfl
        (by simp [World.spawnLight, ht]) (by simp [World.spawnLight, ht]) hspawned
      refine ⟨hstate, ?_⟩
      simp only [World.spawnLight, ht, ← h.nextId]

theorem Matches.spawnOccluder [Scalar K] {w : World K} {r : Roster K} (h : Matches w r)
    (tree : TreeId) (pose : Pose K) (occluder : Occluder K)
    (hspawned : (r.perform (.spawnOccluder tree pose occluder)).1.spawned < 4294967295) :
    Matches (w.spawnOccluder tree pose occluder).1
        (r.perform (.spawnOccluder tree pose occluder)).1 ∧
      .spawned (w.spawnOccluder tree pose occluder).2 =
        (r.perform (.spawnOccluder tree pose occluder)).2 := by
  cases ht : w.trees[tree.number]? with
  | none =>
      have hunknown : ¬tree.number < r.treeCount := by
        rw [← h.treeCount]
        exact Nat.not_lt.mpr (List.getElem?_eq_none_iff.mp ht)
      simp only [World.spawnOccluder, ht, Roster.perform, Roster.spawn, hunknown, if_false]
      exact ⟨h, trivial⟩
  | some t =>
      have hknown : tree.number < r.treeCount := by
        rw [← h.treeCount]
        exact (List.getElem?_eq_some_iff.mp ht).1
      simp only [Roster.perform, Roster.spawn, hknown, if_true] at hspawned ⊢
      have hstate := h.extend (spawnOccluder_extended ht pose occluder) rfl
        (by simp [World.spawnOccluder, ht]) (by simp [World.spawnOccluder, ht]) hspawned
      refine ⟨hstate, ?_⟩
      simp only [World.spawnOccluder, ht, ← h.nextId]

/-- Each action keeps a world and a roster alike and gives the same answer. -/
theorem Matches.perform [Scalar K] {w : World K} {r : Roster K} (h : Matches w r)
    (action : Action K) (hspawned : (r.perform action).1.spawned < 4294967295) :
    Matches (w.perform action).1 (r.perform action).1 ∧
      (w.perform action).2 = (r.perform action).2 := by
  cases action with
  | addTree map pose =>
      exact ⟨h.addTree map pose, by rw [World.perform, Roster.perform, ← h.treeCount]; rfl⟩
  | setTreePose tree pose =>
      refine ⟨h.rework (w.setTreePose_reworked tree pose) (modifyTree_length ..) rfl ?_, rfl⟩
      intro e
      rw [resident?, (w.setTreePose_reworked tree pose).listing?, ← h.residents]
      rfl
  | spawnLight tree pose light =>
      exact ⟨(h.spawnLight tree pose light hspawned).1,
        (h.spawnLight tree pose light hspawned).2⟩
  | spawnOccluder tree pose occluder =>
      exact ⟨(h.spawnOccluder tree pose occluder hspawned).1,
        (h.spawnOccluder tree pose occluder hspawned).2⟩
  | despawn entity =>
      exact ⟨(h.despawn entity).1, congrArg Answer.told (h.despawn entity).2⟩
  | adjust adjustment =>
      exact h.adjust adjustment
  | replaceOccluder entity occluder =>
      exact h.replaceOccluder entity occluder
  | setOccluderPose entity pose =>
      exact h.setOccluderPose entity pose
  | flush =>
      exact ⟨h.flush, congrArg Answer.counted (h.queuedCount hspawned)⟩

theorem Matches.run [Scalar K] (actions : List (Action K)) {w : World K} {r : Roster K}
    (h : Matches w r) (hspawned : (r.run actions).1.spawned < 4294967295) :
    Matches (w.run actions).1 (r.run actions).1 ∧ (w.run actions).2 = (r.run actions).2 := by
  induction actions generalizing w r with
  | nil =>
      exact ⟨h, rfl⟩
  | cons action rest ih =>
      -- Numbers never get smaller, so that they suffice for the first action as well.
      have hfirst : (r.perform action).1.spawned < 4294967295 :=
        Nat.lt_of_le_of_lt ((r.perform action).1.spawned_le_run rest) hspawned
      obtain ⟨hstate, hanswer⟩ := h.perform action hfirst
      obtain ⟨hstates, hanswers⟩ := ih hstate hspawned
      refine ⟨hstates, ?_⟩
      rw [run_cons_snd, hanswer, hanswers]
      rfl

/-- What a caller reads of an entity is what the roster knows of it. -/
theorem Matches.parts {w : World K} {r : Roster K} (h : Matches w r) (e : EntityId) :
    w.light? e = (r.residents e).bind Resident.light? ∧
      w.occluder? e = (r.residents e).bind Resident.occluder? := by
  rcases h.cases e with ⟨hl, hr⟩ | ⟨i, p, s, hl, hslot, -, hr⟩ | ⟨i, p, s, hl, hslot, -, hr⟩
  · simp [light?, occluder?, lightSlot?, occluderSlot?, hl, hr]
  · constructor
    · simp [light?, hslot, hr, Resident.light?]
    · simp [occluder?, occluderSlot?, hl, hr, Resident.occluder?]
  · constructor
    · simp [light?, lightSlot?, hl, hr, Resident.light?]
    · simp [occluder?, hslot, hr, Resident.occluder?]

theorem Consistent.listing?_despawn [Scalar K] {w : World K} (hw : w.Consistent) (e e' : EntityId) :
    (w.despawn e).1.listing? e' = if e' = e then none else w.listing? e' := by
  cases hl : w.location? e with
  | none =>
      rw [despawn_of_unlisted hl]
      by_cases he : e' = e
      · rw [if_pos he, he]
        exact listing?_of_location?_none hl
      · rw [if_neg he]
  | some l =>
      obtain ⟨last, s, hvacated⟩ := despawn_vacated hw.reliable hl
      exact hvacated.listing? hw e'

/-- As long as the numbers of entities suffice, a run from an empty world gives the answers of a
roster and knows what the roster knows; the directory and the lists lead to each other; and the
removal of an entity leaves all that the world knows of any other as it is. -/
theorem run_matches_roster [Scalar K] (actions : List (Action K))
    (hspawned : ((Roster.empty : Roster K).run actions).1.spawned < 4294967295) :
    let w := ((empty : World K).run actions).1
    let r := ((Roster.empty : Roster K).run actions).1
    ((empty : World K).run actions).2 = ((Roster.empty : Roster K).run actions).2 ∧
      w.Consistent ∧
      (∀ e, w.resident? e = r.residents e) ∧
      (∀ e, w.light? e = (r.residents e).bind Resident.light? ∧
        w.occluder? e = (r.residents e).bind Resident.occluder?) ∧
      ∀ e e', (w.despawn e).1.listing? e' = if e' = e then none else w.listing? e' := by
  intro w r
  obtain ⟨hstate, hanswers⟩ := matches_empty.run actions hspawned
  exact ⟨hanswers, hstate.consistent, hstate.residents, hstate.parts,
    hstate.consistent.listing?_despawn⟩

/-- The first of three lights leaves its place to the last one, which then moves. -/
def replacedFirst : List (Action Float32) :=
  [.addTree ⟨1⟩ Pose.identity,
    .spawnLight ⟨0⟩ Pose.identity Light.standard,
    .spawnOccluder ⟨0⟩ Pose.identity Occluder.tile,
    .spawnLight ⟨0⟩ Pose.identity Light.standard,
    .spawnLight ⟨0⟩ Pose.identity { Light.standard with energy := 9.0 },
    .spawnLight ⟨5⟩ Pose.identity Light.standard,
    .despawn ⟨1⟩,
    .despawn ⟨1⟩,
    .adjust (.move ⟨4⟩ (Pose.ofPosition ⟨7.0, 0.0⟩)),
    .flush]

theorem run_replacedFirst :
    ((Roster.empty : Roster Float32).run replacedFirst).1.spawned < 4294967295 ∧
      (((empty : World Float32).run replacedFirst).1.location? ⟨4⟩) = some (.light 0 0) ∧
      ((empty : World Float32).run replacedFirst).2 =
        ((Roster.empty : Roster Float32).run replacedFirst).2 :=
  have hspawned : ((Roster.empty : Roster Float32).run replacedFirst).1.spawned < 4294967295 := by
    decide +kernel
  ⟨hspawned, by decide +kernel, (run_matches_roster replacedFirst hspawned).1⟩

end Matches

end World
end Penumbra
