import Mathlib.Data.List.Basic
import Mathlib.Data.List.Nodup
import Penumbra.Proofs.World.Directory

/-!
# Where answers come from

A query goes through the lists of the trees of a map.  Each of its answers comes from a place in one
of these lists, no place answers twice, and a place that the query looks for is not passed over.
While no two entities have one name, no entity is answered twice either.

**Results**

* `World.entryAt?`: what is at a place of a map.
* `Placed`, `Placed.getElem?`: answers with places of their own.
* `World.exists_placed`: so are those of each query.
* `Placed.entities_nodup`: in a consistent world they are of different entities.
-/

namespace Penumbra

section Placed

variable {α : Type}

/-- Answers that come from places, each from a place of its own, in the order of the places. -/
structure Placed (entryAt : Nat × Nat → Option α) (places : List (Nat × Nat)) (answers : List α) :
    Prop where
  nodup : places.Nodup
  entries : places.map entryAt = answers.map some

variable {entryAt : Nat × Nat → Option α} {places : List (Nat × Nat)} {answers : List α}

theorem Placed.getElem? (h : Placed entryAt places answers) {n : Nat} {place : Nat × Nat}
    (hn : places[n]? = some place) : answers[n]? = entryAt place := by
  have hentry : (places.map entryAt)[n]? = (answers.map some)[n]? := by
    rw [h.entries]
  rw [List.getElem?_map, List.getElem?_map, hn, Option.map_some] at hentry
  cases hanswer : answers[n]? with
  | none =>
      simp [hanswer] at hentry
  | some a =>
      simpa [hanswer] using hentry.symm

/-- What differs from place to place differs from answer to answer. -/
theorem Placed.map_nodup (h : Placed entryAt places answers) {β : Type} (f : α → β)
    (hf : ∀ x ∈ places, ∀ y ∈ places, (entryAt x).map f = (entryAt y).map f → x = y) :
    (answers.map f).Nodup := by
  have hmap : places.map (fun place => (entryAt place).map f) = (answers.map f).map some := by
    calc places.map (fun place => (entryAt place).map f)
        = (places.map entryAt).map (Option.map f) := by
          rw [List.map_map]
          rfl
      _ = (answers.map f).map some := by
          rw [h.entries, List.map_map, List.map_map]
          rfl
  have hnodup := h.nodup.map_on hf
  rw [hmap] at hnodup
  exact hnodup.of_map

end Placed

namespace World

variable {K σ α : Type}

/-- What stands at a place of some lists of the trees: the number of a tree, which is on the map,
and a place in its list. -/
def entryAt? (w : World K) (map : MapId) (slots : Tree K → List σ) (entry : Tree K → σ → α)
    (place : Nat × Nat) : Option α :=
  (w.trees[place.1]?.filter (·.map == map)).bind fun t => (slots t)[place.2]?.map (entry t)

theorem entryAt?_eq_some {w : World K} {map : MapId} {slots : Tree K → List σ}
    {entry : Tree K → σ → α} {place : Nat × Nat} {a : α} :
    w.entryAt? map slots entry place = some a ↔
      ∃ t, w.trees[place.1]? = some t ∧ t.map = map ∧
        ∃ s, (slots t)[place.2]? = some s ∧ entry t s = a := by
  simp only [entryAt?, Option.bind_eq_some_iff, Option.filter_eq_some_iff, Option.map_eq_some_iff,
    beq_iff_eq, and_assoc]

/-- What a query answers, tree by tree and place by place, each answer with its place. -/
def placedAnswers (w : World K) (map : MapId) (slots : Tree K → List σ)
    (keep : Tree K → σ → Bool) (entry : Tree K → σ → α) : List ((Nat × Nat) × α) :=
  (w.trees.zipIdx.filter (·.1.map == map)).flatMap fun t =>
    ((slots t.1).zipIdx.filter fun s => keep t.1 s.1).map fun s => ((t.2, s.2), entry t.1 s.1)

variable {w : World K} {map : MapId} {slots : Tree K → List σ} {keep : Tree K → σ → Bool}
  {entry : Tree K → σ → α}

theorem mem_placedAnswers {x : (Nat × Nat) × α} :
    x ∈ w.placedAnswers map slots keep entry ↔
      ∃ t, w.trees[x.1.1]? = some t ∧ t.map = map ∧
        ∃ s, (slots t)[x.1.2]? = some s ∧ keep t s = true ∧ entry t s = x.2 := by
  obtain ⟨⟨i, j⟩, a⟩ := x
  simp only [placedAnswers, List.mem_flatMap, List.mem_filter, List.mem_map, Prod.exists,
    List.mem_zipIdx_iff_getElem?, beq_iff_eq, Prod.mk.injEq]
  constructor
  · rintro ⟨t, i', ⟨ht, hmap⟩, s, j', ⟨hs, hkeep⟩, ⟨rfl, rfl⟩, ha⟩
    exact ⟨t, ht, hmap, s, hs, hkeep, ha⟩
  · rintro ⟨t, ht, hmap, s, hs, hkeep, ha⟩
    exact ⟨t, i, ⟨ht, hmap⟩, s, j, ⟨hs, hkeep⟩, ⟨rfl, rfl⟩, ha⟩

theorem map_snd_placedAnswers :
    (w.placedAnswers map slots keep entry).map (·.2) =
      (w.treesOn map).flatMap fun t => ((slots t).filter (keep t)).map (entry t) := by
  have hlist : ∀ t : Tree K × Nat, (((slots t.1).zipIdx.filter fun s => keep t.1 s.1).map
      fun s => ((t.2, s.2), entry t.1 s.1)).map (·.2) =
      ((slots t.1).filter (keep t.1)).map (entry t.1) := by
    intro t
    have hslots := List.zipIdx_map_fst 0 (slots t.1)
    conv_rhs => rw [← hslots, List.filter_map, List.map_map]
    rw [List.map_map]
    rfl
  have htrees := List.zipIdx_map_fst 0 w.trees
  rw [treesOn, placedAnswers, List.map_flatMap]
  simp only [hlist]
  conv_rhs => rw [← htrees, List.filter_map, List.flatMap_map]
  rfl

theorem nodup_numbers {β : Type} (xs : List β) (p : β × Nat → Bool) :
    ((xs.zipIdx.filter p).map (·.2)).Nodup := by
  have hall : (xs.zipIdx.map (·.2)).Nodup := by
    rw [List.zipIdx_map_snd]
    exact List.nodup_range' 1
  exact hall.sublist (List.filter_sublist.map _)

theorem nodup_placedAnswers : ((w.placedAnswers map slots keep entry).map (·.1)).Nodup := by
  rw [placedAnswers, List.map_flatMap, List.nodup_flatMap]
  constructor
  · intro t _
    have hplaces := nodup_numbers (slots t.1) fun s => keep t.1 s.1
    rw [List.map_map]
    refine List.Nodup.of_map (·.2) ?_
    rwa [List.map_map]
  · have htrees := nodup_numbers w.trees fun t => t.1.map == map
    refine (List.pairwise_map.mp htrees).imp ?_
    intro t u htu x hx hx'
    simp only [List.map_map, List.mem_map, Function.comp_apply] at hx hx'
    obtain ⟨s, -, rfl⟩ := hx
    obtain ⟨s', -, heq⟩ := hx'
    exact htu (congrArg Prod.fst heq).symm

/-- The answers of a query come from places of their own, and each place that is looked for is among
them. -/
theorem exists_placed (w : World K) (map : MapId) (slots : Tree K → List σ)
    (keep : Tree K → σ → Bool) (entry : Tree K → σ → α) :
    ∃ places, Placed (w.entryAt? map slots entry) places
        ((w.treesOn map).flatMap fun t => ((slots t).filter (keep t)).map (entry t)) ∧
      ∀ place t s, w.trees[place.1]? = some t → t.map = map → (slots t)[place.2]? = some s →
        keep t s = true → place ∈ places := by
  refine ⟨(w.placedAnswers map slots keep entry).map (·.1), ⟨nodup_placedAnswers, ?_⟩, ?_⟩
  · rw [← map_snd_placedAnswers, List.map_map, List.map_map]
    refine List.map_congr_left ?_
    intro x hx
    obtain ⟨t, ht, hmap, s, hs, -, ha⟩ := mem_placedAnswers.mp hx
    exact entryAt?_eq_some.mpr ⟨t, ht, hmap, s, hs, ha⟩
  · intro place t s ht hmap hs hkeep
    exact List.mem_map.mpr
      ⟨(place, entry t s), mem_placedAnswers.mpr ⟨t, ht, hmap, s, hs, hkeep, rfl⟩, rfl⟩

end World

section Entities

variable {K : Type} [Scalar K] {w : World K} {map : MapId} {places : List (Nat × Nat)}

/-- The light at a place of a map, with its pose on the map. -/
def World.lightAt? (w : World K) (map : MapId) : Nat × Nat → Option (LightEntry K) :=
  w.entryAt? map (·.lights) fun t s => ⟨s.entity, s.light, t.pose.andThen s.pose⟩

/-- The wall at a place of a map, with its pose on the map. -/
def World.occluderAt? (w : World K) (map : MapId) : Nat × Nat → Option (OccluderEntry K) :=
  w.entryAt? map (·.occluders) fun t s => ⟨s.entity, s.occluder, t.pose.andThen s.pose⟩

omit [Scalar K] in
/-- While each name leads to one place, no two answers have one name. -/
theorem Placed.entities_nodup {α : Type} {entryAt : Nat × Nat → Option α} {answers : List α}
    (h : Placed entryAt places answers) (hw : w.Consistent) (locate : Nat → Nat → Location)
    (hlocate : ∀ i j i' j', locate i j = locate i' j' → i = i' ∧ j = j') {name : α → EntityId}
    (hslot : ∀ place a, entryAt place = some a →
      ∃ s, w.slotAt? (locate place.1 place.2) = some s ∧ s.entity = name a) :
    (answers.map name).Nodup := by
  have hentry : ∀ x ∈ places, ∃ a, entryAt x = some a := by
    intro x hx
    have hmem : entryAt x ∈ answers.map some := h.entries ▸ List.mem_map_of_mem hx
    obtain ⟨a, -, ha⟩ := List.mem_map.mp hmem
    exact ⟨a, ha.symm⟩
  refine h.map_nodup name ?_
  intro x hx y hy hname
  obtain ⟨a, ha⟩ := hentry x hx
  obtain ⟨b, hb⟩ := hentry y hy
  obtain ⟨s, hs, hsa⟩ := hslot x a ha
  obtain ⟨s', hs', hsb⟩ := hslot y b hb
  rw [ha, hb, Option.map_some, Option.map_some, Option.some.injEq, ← hsa, ← hsb] at hname
  obtain ⟨hi, hj⟩ := hlocate _ _ _ _ (hw.eq_of_entity_eq hs hs' hname)
  exact Prod.ext hi hj

theorem Placed.light_entities_nodup {answers : List (LightEntry K)}
    (h : Placed (w.lightAt? map) places answers) (hw : w.Consistent) :
    (answers.map (·.entity)).Nodup := by
  refine h.entities_nodup hw .light ?_ ?_
  · intro i j i' j' heq
    exact Location.light.inj heq
  · intro place e he
    obtain ⟨t, ht, -, s, hs, rfl⟩ := World.entryAt?_eq_some.mp he
    exact ⟨.light s, by simp [World.slotAt?, Location.tree, Tree.slotAt?, ht, hs], rfl⟩

theorem Placed.occluder_entities_nodup {answers : List (OccluderEntry K)}
    (h : Placed (w.occluderAt? map) places answers) (hw : w.Consistent) :
    (answers.map (·.entity)).Nodup := by
  refine h.entities_nodup hw .occluder ?_ ?_
  · intro i j i' j' heq
    exact Location.occluder.inj heq
  · intro place e he
    obtain ⟨t, ht, -, s, hs, rfl⟩ := World.entryAt?_eq_some.mp he
    exact ⟨.occluder s, by simp [World.slotAt?, Location.tree, Tree.slotAt?, ht, hs], rfl⟩

end Entities
end Penumbra
