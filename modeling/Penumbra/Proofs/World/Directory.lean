import Mathlib.Data.List.Basic
import Penumbra.World.Basic

/-!
# The directory of a world

The directory tells where the light or the wall of an entity is listed.  It is a bijection between
the entities that it knows and the places of all lists: each entry leads to a slot with the name of
the entity, and each slot is led to.

Every operation is described by what it does to two functions, from entities to locations and from
locations to slots.  There are only three kinds of changes: slots are changed where they are, a new
slot is put behind a list, and a slot leaves its place to the last one of its list.

**Results**

* `getElem?_swapRemove`: what is at each place after a removal.
* `World.Consistent`: the bijection, and that it leads into the lists.
* `World.Reliable`: the half of it that stays when names repeat.
* `World.Reworked`, `World.Extended`, `World.Vacated`: the three kinds of changes, each of which
  keeps the bijection, with what it means for `World.listing?`.
-/

namespace Penumbra

/-- After a removal the last element is at the place, and all others are where they were. -/
theorem getElem?_swapRemove {α : Type} {xs : List α} {place : Nat} (hplace : place < xs.length)
    (q : Nat) :
    (swapRemove xs place)[q]? =
      if q = xs.length - 1 then none
      else if q = place then xs[xs.length - 1]?
      else xs[q]? := by
  have hbound : xs.length - 1 < xs.length := by
    omega
  have hlast : xs.getLast? = some xs[xs.length - 1] := by
    rw [List.getLast?_eq_getElem?]
    exact List.getElem?_eq_getElem hbound
  simp only [swapRemove, hlast, List.getElem?_dropLast, List.length_set, List.getElem?_set]
  grind

/-- The light or the wall of an entity in the list of its tree. -/
inductive Slot (K : Type) where
  | light (slot : LightSlot K)
  | occluder (slot : OccluderSlot K)
deriving Repr, Inhabited

namespace Slot

variable {K : Type}

def entity : Slot K → EntityId
  | light slot => slot.entity
  | occluder slot => slot.entity

/-- A slot with its light changed. -/
def mapLight (f : LightSlot K → LightSlot K) : Slot K → Slot K
  | light slot => light (f slot)
  | occluder slot => occluder slot

/-- A slot with its wall changed. -/
def mapOccluder (f : OccluderSlot K → OccluderSlot K) : Slot K → Slot K
  | light slot => light slot
  | occluder slot => occluder (f slot)

theorem entity_mapLight {f : LightSlot K → LightSlot K} (hf : ∀ s, (f s).entity = s.entity)
    (s : Slot K) : (s.mapLight f).entity = s.entity := by
  cases s with
  | light slot => exact hf slot
  | occluder slot => rfl

theorem entity_mapOccluder {f : OccluderSlot K → OccluderSlot K}
    (hf : ∀ s, (f s).entity = s.entity) (s : Slot K) :
    (s.mapOccluder f).entity = s.entity := by
  cases s with
  | light slot => rfl
  | occluder slot => exact hf slot

end Slot

def Location.tree : Location → Nat
  | .light tree _ => tree
  | .occluder tree _ => tree

/-- What a tree lists at a location inside it. -/
def Tree.slotAt? {K : Type} (t : Tree K) : Location → Option (Slot K)
  | .light _ place => t.lights[place]?.map .light
  | .occluder _ place => t.occluders[place]?.map .occluder

namespace World

section Lookup

variable (directory : List (EntityId × Location))

@[simp] theorem lookup_forget (entity e : EntityId) :
    (forget directory entity).lookup e = if e = entity then none else directory.lookup e := by
  induction directory with
  | nil =>
      simp [forget]
  | cons entry rest ih =>
      obtain ⟨key, location⟩ := entry
      by_cases hkey : key = entity
      · have hskip : forget ((key, location) :: rest) entity = forget rest entity := by
          simp [forget, hkey]
        rw [hskip, ih]
        by_cases he : e = entity
        · simp [he]
        · have hne : (e == key) = false := by simp [hkey, he]
          simp [he, List.lookup_cons, hne]
      · have hkeep : forget ((key, location) :: rest) entity =
            (key, location) :: forget rest entity := by
          simp [forget, hkey]
        rw [hkeep, List.lookup_cons, List.lookup_cons, ih]
        by_cases he : e = entity
        · subst he
          have hne : (e == key) = false := by
            rw [beq_eq_false_iff_ne]
            exact fun h => hkey h.symm
          simp [hne]
        · simp [he]

@[simp] theorem lookup_record (entity e : EntityId) (location : Location) :
    (record directory entity location).lookup e =
      if e = entity then some location else directory.lookup e := by
  by_cases he : e = entity
  · simp [record, he]
  · have hne : (e == entity) = false := by simp [he]
    simp [record, List.lookup_cons, hne, he]

@[simp] theorem lookup_recordMoved (moved : Option EntityId) (e : EntityId) (location : Location) :
    (recordMoved directory moved location).lookup e =
      if moved = some e then some location else directory.lookup e := by
  cases moved with
  | none =>
      simp [recordMoved]
  | some entity =>
      simp [recordMoved, eq_comm]

end Lookup

section Consistent

variable {K : Type}

/-- What is listed at a location. -/
def slotAt? (w : World K) (l : Location) : Option (Slot K) := w.trees[l.tree]?.bind (·.slotAt? l)

/-- The tree of an entity, and its light or its wall with all that the tree knows about it. -/
def listing? (w : World K) (e : EntityId) : Option (Nat × Slot K) :=
  (w.location? e).bind fun l => (w.slotAt? l).map fun s => (l.tree, s)

/-- What the directory tells is so, whether or not it tells of all slots. -/
structure Reliable (w : World K) : Prop where
  slot_of_location : ∀ {e l}, w.location? e = some l → ∃ s, w.slotAt? l = some s ∧ s.entity = e

/-- The directory and the slots lead to each other. -/
structure Consistent (w : World K) : Prop where
  slot_of_location : ∀ {e l}, w.location? e = some l → ∃ s, w.slotAt? l = some s ∧ s.entity = e
  location_of_slot : ∀ {l s}, w.slotAt? l = some s → w.location? s.entity = some l

theorem Consistent.reliable {w : World K} (hw : w.Consistent) : w.Reliable :=
  ⟨hw.slot_of_location⟩

theorem Consistent.eq_of_entity_eq {w : World K} (hw : w.Consistent) {l l' : Location}
    {s s' : Slot K} (hs : w.slotAt? l = some s) (hs' : w.slotAt? l' = some s')
    (h : s.entity = s'.entity) : l = l' := by
  have hl := hw.location_of_slot hs
  have hl' := hw.location_of_slot hs'
  rw [h, hl'] at hl
  exact (Option.some.inj hl).symm

theorem listing?_of_location? {w : World K} {e : EntityId} {l : Location}
    (h : w.location? e = some l) :
    w.listing? e = (w.slotAt? l).map fun s => (l.tree, s) := by
  simp [listing?, h]

theorem listing?_of_location?_none {w : World K} {e : EntityId} (h : w.location? e = none) :
    w.listing? e = none := by
  simp [listing?, h]

/-- What the directory leads to is what was asked for. -/
theorem Consistent.entity_of_listing? {w : World K} (hw : w.Consistent) {e : EntityId} {i : Nat}
    {s : Slot K} (h : w.listing? e = some (i, s)) : s.entity = e := by
  cases hl : w.location? e with
  | none =>
      simp [listing?_of_location?_none hl] at h
  | some l =>
      obtain ⟨s', hs', hentity⟩ := hw.slot_of_location hl
      rw [listing?_of_location? hl, hs'] at h
      cases h
      exact hentity

/-- Slots are changed where they are. -/
structure Reworked (w w' : World K) (f : Location → Slot K → Slot K) : Prop where
  location? : ∀ e, w'.location? e = w.location? e
  slotAt? : ∀ l, w'.slotAt? l = (w.slotAt? l).map (f l)
  entity : ∀ l s, (f l s).entity = s.entity

theorem Reworked.reliable {w w' : World K} {f : Location → Slot K → Slot K}
    (h : w.Reworked w' f) (hw : w.Reliable) : w'.Reliable where
  slot_of_location := by
    intro e l hl
    rw [h.location?] at hl
    obtain ⟨s, hs, he⟩ := hw.slot_of_location hl
    exact ⟨f l s, by simp [h.slotAt?, hs], by rw [h.entity, he]⟩

theorem Reworked.consistent {w w' : World K} {f : Location → Slot K → Slot K}
    (h : w.Reworked w' f) (hw : w.Consistent) : w'.Consistent where
  slot_of_location := (h.reliable hw.reliable).slot_of_location
  location_of_slot := by
    intro l s hs
    rw [h.slotAt?, Option.map_eq_some_iff] at hs
    obtain ⟨s', hs', rfl⟩ := hs
    rw [h.entity, h.location?]
    exact hw.location_of_slot hs'

theorem Reworked.listing? {w w' : World K} {f : Location → Slot K → Slot K}
    (h : w.Reworked w' f) (e : EntityId) :
    w'.listing? e = (w.location? e).bind fun l =>
      (w.slotAt? l).map fun s => (l.tree, f l s) := by
  simp only [World.listing?, h.location?, h.slotAt?, Option.map_map]
  rfl

/-- What is changed about one entity leaves all others alone. -/
theorem Reworked.listing?_of_listed {w w' : World K} {e : EntityId} {g : Slot K → Slot K}
    (h : w.Reworked w' fun m s => if w.location? e = some m then g s else s)
    (hw : w.Consistent) (e' : EntityId) :
    w'.listing? e' =
      if e' = e then (w.listing? e).map fun x => (x.1, g x.2) else w.listing? e' := by
  rw [h.listing?]
  by_cases he : e' = e
  · subst he
    cases hl : w.location? e' with
    | none => simp [World.listing?, hl]
    | some l => simp [World.listing?, hl, Option.map_map, Function.comp_def]
  · rw [if_neg he]
    cases hl : w.location? e' with
    | none =>
        simp [World.listing?, hl]
    | some l =>
        have hne : w.location? e ≠ some l := by
          intro hl'
          obtain ⟨s, hs, hse⟩ := hw.slot_of_location hl
          obtain ⟨s', hs', hse'⟩ := hw.slot_of_location hl'
          rw [hs] at hs'
          cases hs'
          exact he (hse.symm.trans hse')
        simp [World.listing?, hl, hne]

/-- A slot is put at a location where there was none. -/
structure Extended (w w' : World K) (l : Location) (s : Slot K) : Prop where
  free : w.slotAt? l = none
  location? : ∀ e, w'.location? e = if e = s.entity then some l else w.location? e
  slotAt? : ∀ m, w'.slotAt? m = if m = l then some s else w.slotAt? m

/-- The slot may also take the name of another one, which the directory then no longer tells of. -/
theorem Extended.reliable {w w' : World K} {l : Location} {s : Slot K}
    (h : w.Extended w' l s) (hw : w.Reliable) : w'.Reliable where
  slot_of_location := by
    intro e m hm
    rw [h.location?] at hm
    by_cases he : e = s.entity
    · simp only [he, if_true, Option.some.injEq] at hm
      exact ⟨s, by simp [h.slotAt?, hm], he.symm⟩
    · simp only [he, if_false] at hm
      obtain ⟨s', hs', he'⟩ := hw.slot_of_location hm
      have hne : m ≠ l := by
        rintro rfl
        simp [h.free] at hs'
      exact ⟨s', by simp [h.slotAt?, hne, hs'], he'⟩

theorem Extended.consistent {w w' : World K} {l : Location} {s : Slot K}
    (h : w.Extended w' l s) (hw : w.Consistent) (hnew : w.location? s.entity = none) :
    w'.Consistent where
  slot_of_location := (h.reliable hw.reliable).slot_of_location
  location_of_slot := by
    intro m s' hs'
    rw [h.slotAt?] at hs'
    by_cases hm : m = l
    · simp only [hm, if_true, Option.some.injEq] at hs'
      simp [h.location?, ← hs', hm]
    · simp only [hm, if_false] at hs'
      have hm' := hw.location_of_slot hs'
      have hne : s'.entity ≠ s.entity := by
        intro he
        rw [he, hnew] at hm'
        cases hm'
      simp [h.location?, hne, hm']

theorem Extended.listing? {w w' : World K} {l : Location} {s : Slot K}
    (h : w.Extended w' l s) (hw : w.Consistent) (e : EntityId) :
    w'.listing? e = if e = s.entity then some (l.tree, s) else w.listing? e := by
  by_cases he : e = s.entity
  · have hl : w'.location? e = some l := by simp [h.location?, he]
    rw [if_pos he, listing?_of_location? hl, h.slotAt?]
    simp
  · have hsame : w'.location? e = w.location? e := by simp [h.location?, he]
    simp only [he, if_false, World.listing?, hsame]
    cases hm : w.location? e with
    | none =>
        rfl
    | some m =>
        obtain ⟨s', hs', -⟩ := hw.slot_of_location hm
        have hne : m ≠ l := by
          rintro rfl
          simp [h.free] at hs'
        simp [h.slotAt?, hne]

/--
The slot of an entity is taken away, and the slot at the last location of the list takes its
place.  When it was the last one itself, no slot moves.
-/
structure Vacated (w w' : World K) (e : EntityId) (l last : Location) (s : Slot K) : Prop where
  listed : w.location? e = some l
  tree_eq : last.tree = l.tree
  moved : w.slotAt? last = some s
  location? : ∀ e', w'.location? e' =
    if l ≠ last ∧ e' = s.entity then some l else if e' = e then none else w.location? e'
  slotAt? : ∀ m, w'.slotAt? m = if m = last then none else if m = l then some s else w.slotAt? m

theorem Vacated.moved_entity_ne {w w' : World K} {e : EntityId} {l last : Location} {s : Slot K}
    (h : w.Vacated w' e l last s) (hw : w.Consistent) (hne : l ≠ last) : s.entity ≠ e := by
  rintro rfl
  have hlast := hw.location_of_slot h.moved
  rw [h.listed] at hlast
  exact hne (Option.some.inj hlast)

/-- A slot of another entity that does not move is at neither of the two locations. -/
theorem Vacated.slotAt?_of_listed {w w' : World K} {e e' : EntityId} {l last m : Location}
    {s : Slot K} (h : w.Vacated w' e l last s) (hw : w.Reliable) (he : e' ≠ e)
    (hstay : ¬(l ≠ last ∧ e' = s.entity)) (hm : w.location? e' = some m) :
    w'.slotAt? m = w.slotAt? m := by
  obtain ⟨s', hs', hs'e⟩ := hw.slot_of_location hm
  have hml : m ≠ l := by
    rintro rfl
    obtain ⟨s'', hs'', hs''e⟩ := hw.slot_of_location h.listed
    rw [hs'] at hs''
    cases hs''
    exact he (hs'e.symm.trans hs''e)
  have hmlast : m ≠ last := by
    rintro rfl
    rw [h.moved] at hs'
    cases hs'
    exact hstay ⟨fun hl => hml hl.symm, hs'e.symm⟩
  simp [h.slotAt?, hml, hmlast]

theorem Vacated.reliable {w w' : World K} {e : EntityId} {l last : Location} {s : Slot K}
    (h : w.Vacated w' e l last s) (hw : w.Reliable) : w'.Reliable where
  slot_of_location := by
    intro e' m hm
    rw [h.location?] at hm
    by_cases hmoves : l ≠ last ∧ e' = s.entity
    · rw [if_pos hmoves] at hm
      cases hm
      exact ⟨s, by simp [h.slotAt?, hmoves.1], hmoves.2.symm⟩
    · rw [if_neg hmoves] at hm
      by_cases he : e' = e
      · simp [he] at hm
      · rw [if_neg he] at hm
        rw [h.slotAt?_of_listed hw he hmoves hm]
        exact hw.slot_of_location hm

theorem Vacated.consistent {w w' : World K} {e : EntityId} {l last : Location} {s : Slot K}
    (h : w.Vacated w' e l last s) (hw : w.Consistent) : w'.Consistent where
  slot_of_location := (h.reliable hw.reliable).slot_of_location
  location_of_slot := by
    intro m s' hs'
    rw [h.slotAt?] at hs'
    by_cases hmlast : m = last
    · simp [hmlast] at hs'
    · rw [if_neg hmlast] at hs'
      by_cases hml : m = l
      · rw [if_pos hml] at hs'
        cases hs'
        have hne : l ≠ last := hml ▸ hmlast
        simp [h.location?, hne, hml]
      · rw [if_neg hml] at hs'
        have hm := hw.location_of_slot hs'
        have he : s'.entity ≠ e := by
          rintro rfl
          rw [h.listed] at hm
          exact hml (Option.some.inj hm).symm
        have hstay : ¬(l ≠ last ∧ s'.entity = s.entity) := by
          rintro ⟨-, heq⟩
          exact hmlast (hw.eq_of_entity_eq hs' h.moved heq)
        rw [h.location?, if_neg hstay, if_neg he, hm]

/-- The entity is gone, and nothing else is known otherwise than before. -/
theorem Vacated.listing? {w w' : World K} {e : EntityId} {l last : Location} {s : Slot K}
    (h : w.Vacated w' e l last s) (hw : w.Consistent) (e' : EntityId) :
    w'.listing? e' = if e' = e then none else w.listing? e' := by
  by_cases he : e' = e
  · subst he
    have hstay : ¬(l ≠ last ∧ e' = s.entity) := by
      rintro ⟨hne, heq⟩
      exact h.moved_entity_ne hw hne heq.symm
    simp [World.listing?, h.location?, hstay]
  · rw [if_neg he]
    by_cases hmoves : l ≠ last ∧ e' = s.entity
    · have hl : w'.location? e' = some l := by
        rw [h.location?, if_pos hmoves]
      have hlast : w.location? e' = some last := hmoves.2 ▸ hw.location_of_slot h.moved
      rw [listing?_of_location? hl, listing?_of_location? hlast, h.slotAt?, h.moved, h.tree_eq]
      simp [hmoves.1]
    · have hsame : w'.location? e' = w.location? e' := by
        rw [h.location?, if_neg hmoves, if_neg he]
      cases hm : w.location? e' with
      | none =>
          rw [listing?_of_location?_none hm, listing?_of_location?_none (hsame.trans hm)]
      | some m =>
          rw [listing?_of_location? hm, listing?_of_location? (hsame.trans hm),
            h.slotAt?_of_listed hw.reliable he hmoves hm]

end Consistent

end World
end Penumbra
