import Penumbra.Geometry.Circle
import Penumbra.World.Index

/-!
# Worlds

A world is made of trees, each with its own pose on a map.  A tree lists its lights and its walls;
a directory tells where the light or the wall of an entity is listed.  What is removed leaves its
place to the last one of the list.

A light is listed with the bounds it had when the tree last took notice of it.  Changes of a light
show in a query only after `World.flush`.

**Contents**

* `LightSlot`, `OccluderSlot`, `Tree`, `Location`, `World`.
* `World.addTree`, `World.spawnLight`, `World.spawnOccluder`, `World.despawn`.
* `World.changeLight`, `World.setLightPose`, `World.replaceOccluder`, `World.setOccluderPose`,
  `World.setTreePose`, `World.flush`.
* `World.index`: the answers to the queries of a frame.
-/

namespace Penumbra

/-- Names a tree of a world by its place in the order of creation. -/
structure TreeId where
  number : Nat
deriving DecidableEq, Repr, Inhabited

/-- A light in the list of its tree. -/
structure LightSlot (K : Type) where
  entity : EntityId
  light : Light K
  pose : Pose K
  inTree : Bool
  /-- The box around the light, as of the last notice. -/
  bounds : Box2 K
deriving Repr, Inhabited

/-- A wall in the list of its tree. -/
structure OccluderSlot (K : Type) where
  entity : EntityId
  occluder : Occluder K
  pose : Pose K
deriving Repr, Inhabited

/-- Lights and walls that move together. -/
structure Tree (K : Type) where
  map : MapId
  pose : Pose K
  lights : List (LightSlot K)
  occluders : List (OccluderSlot K)
deriving Repr, Inhabited

/-- Where the light or the wall of an entity is listed. -/
inductive Location where
  | light (tree place : Nat)
  | occluder (tree place : Nat)
deriving DecidableEq, Repr, Inhabited

/-- Trees of lights and walls, and where each entity is listed. -/
structure World (K : Type) where
  nextId : UInt32
  trees : List (Tree K)
  directory : List (EntityId × Location)
deriving Repr, Inhabited

namespace LightSlot

variable {K : Type} [Scalar K]

/-- The box around the light where it is now. -/
def currentBounds (s : LightSlot K) : Box2 K :=
  (Circle.mk (s.pose.apply s.light.offset) s.light.radius).boundingBox

/-- The tree takes notice of the light as it is now. -/
def refresh (s : LightSlot K) : LightSlot K :=
  { s with
    inTree := s.light.addsToTree
    bounds := s.currentBounds
    light := { s.light with updateQueued := false } }

/-- The slot of a light that has just come into the tree. -/
def new (entity : EntityId) (pose : Pose K) (light : Light K) : LightSlot K :=
  refresh ⟨entity, light, pose, false, Box2.zero⟩

end LightSlot

/-- The list without the element at a place, which the last element takes. -/
def swapRemove {α : Type} (xs : List α) (place : Nat) : List α :=
  match xs.getLast? with
  | some last => (xs.set place last).dropLast
  | none => []

namespace World

variable {K : Type} [Scalar K]

def empty : World K := ⟨1, [], []⟩

def forget (directory : List (EntityId × Location)) (entity : EntityId) :
    List (EntityId × Location) :=
  directory.filter fun entry => entry.1 != entity

def record (directory : List (EntityId × Location)) (entity : EntityId) (location : Location) :
    List (EntityId × Location) :=
  (entity, location) :: forget directory entity

def location? (w : World K) (entity : EntityId) : Option Location := w.directory.lookup entity

def modifyTree (w : World K) (tree : Nat) (f : Tree K → Tree K) : World K :=
  { w with trees := w.trees.modify tree f }

def addTree (w : World K) (map : MapId) (pose : Pose K) : World K × TreeId :=
  ({ w with trees := w.trees ++ [⟨map, pose, [], []⟩] }, ⟨w.trees.length⟩)

/-- Moves a tree with all that is in it; an unknown tree changes nothing. -/
def setTreePose (w : World K) (tree : TreeId) (pose : Pose K) : World K :=
  w.modifyTree tree.number fun t => { t with pose }

/-- The number after a number; after the last one follows one. -/
def numberAfter (n : UInt32) : UInt32 := if n + 1 = 0 then 1 else n + 1

/-- Puts a light into a tree and names its entity; an unknown tree takes none. -/
def spawnLight (w : World K) (tree : TreeId) (pose : Pose K) (light : Light K) :
    World K × Option EntityId :=
  match w.trees[tree.number]? with
  | none => (w, none)
  | some t =>
    let entity : EntityId := ⟨w.nextId⟩
    let slot := LightSlot.new entity pose light
    ({ nextId := numberAfter w.nextId
       trees := w.trees.set tree.number { t with lights := t.lights ++ [slot] }
       directory := record w.directory entity (.light tree.number t.lights.length) },
      some entity)

/-- Puts a wall into a tree and names its entity; an unknown tree takes none. -/
def spawnOccluder (w : World K) (tree : TreeId) (pose : Pose K) (occluder : Occluder K) :
    World K × Option EntityId :=
  match w.trees[tree.number]? with
  | none => (w, none)
  | some t =>
    let entity : EntityId := ⟨w.nextId⟩
    let slot : OccluderSlot K := ⟨entity, occluder, pose⟩
    ({ nextId := numberAfter w.nextId
       trees := w.trees.set tree.number { t with occluders := t.occluders ++ [slot] }
       directory := record w.directory entity (.occluder tree.number t.occluders.length) },
      some entity)

/-- Notes where the entity is listed that has taken a place that became free. -/
def recordMoved (directory : List (EntityId × Location)) (moved : Option EntityId)
    (location : Location) : List (EntityId × Location) :=
  match moved with
  | some entity => record directory entity location
  | none => directory

/-- Removes an entity with its light or its wall; tells whether there was one. -/
def despawn (w : World K) (entity : EntityId) : World K × Bool :=
  match w.location? entity with
  | none => (w, false)
  | some location =>
    let directory := forget w.directory entity
    match location with
    | .light tree place =>
      match w.trees[tree]? with
      | none => ({ w with directory }, true)
      | some t =>
        let lights := swapRemove t.lights place
        let moved := lights[place]?.map (·.entity)
        ({ w with
           trees := w.trees.set tree { t with lights }
           directory := recordMoved directory moved location }, true)
    | .occluder tree place =>
      match w.trees[tree]? with
      | none => ({ w with directory }, true)
      | some t =>
        let occluders := swapRemove t.occluders place
        let moved := occluders[place]?.map (·.entity)
        ({ w with
           trees := w.trees.set tree { t with occluders }
           directory := recordMoved directory moved location }, true)

def lightSlot? (w : World K) (entity : EntityId) : Option (LightSlot K) :=
  match w.location? entity with
  | some (.light tree place) => w.trees[tree]?.bind (·.lights[place]?)
  | _ => none

def occluderSlot? (w : World K) (entity : EntityId) : Option (OccluderSlot K) :=
  match w.location? entity with
  | some (.occluder tree place) => w.trees[tree]?.bind (·.occluders[place]?)
  | _ => none

def light? (w : World K) (entity : EntityId) : Option (Light K) :=
  (w.lightSlot? entity).map (·.light)

def occluder? (w : World K) (entity : EntityId) : Option (Occluder K) :=
  (w.occluderSlot? entity).map (·.occluder)

/-- The world with the slot of the light of an entity changed. -/
def modifyLight (w : World K) (entity : EntityId) (f : LightSlot K → LightSlot K) : World K :=
  match w.location? entity with
  | some (.light tree place) =>
    w.modifyTree tree fun t => { t with lights := t.lights.modify place f }
  | _ => w

/-- The world with the slot of the wall of an entity changed. -/
def modifyOccluder (w : World K) (entity : EntityId) (f : OccluderSlot K → OccluderSlot K) :
    World K :=
  match w.location? entity with
  | some (.occluder tree place) =>
    w.modifyTree tree fun t => { t with occluders := t.occluders.modify place f }
  | _ => w

/-- Makes a change of the light of an entity and tells its result, if there is such a light. -/
def changeLight (w : World K) (entity : EntityId) (change : LightChange K) :
    World K × Option (Option Bool) :=
  match w.light? entity with
  | none => (w, none)
  | some light =>
    (w.modifyLight entity fun s => { s with light := (change.apply s.light).1 },
      some (change.apply light).2)

/-- Moves an entity with a light inside its tree; tells whether there is one. -/
def setLightPose (w : World K) (entity : EntityId) (pose : Pose K) : World K × Bool :=
  match w.location? entity with
  | some (.light _ _) =>
    (w.modifyLight entity fun s => { s with pose, light := { s.light with updateQueued := true } },
      true)
  | _ => (w, false)

/-- Puts another wall in the place of the wall of an entity. -/
def replaceOccluder (w : World K) (entity : EntityId) (occluder : Occluder K) : World K :=
  w.modifyOccluder entity fun s => { s with occluder }

/-- Moves an entity that is a wall inside its tree; tells whether there is one. -/
def setOccluderPose (w : World K) (entity : EntityId) (pose : Pose K) : World K × Bool :=
  match w.location? entity with
  | some (.occluder _ _) => (w.modifyOccluder entity fun s => { s with pose }, true)
  | _ => (w, false)

/-- The lights of the world that the trees have yet to take notice of. -/
def queuedCount (w : World K) : Nat :=
  ((w.trees.flatMap (·.lights)).filter fun s => s.light.updateQueued).length

/-- The trees take notice of all changes; tells of how many lights. -/
def flush (w : World K) : World K × Nat :=
  let notice := fun s : LightSlot K => if s.light.updateQueued then s.refresh else s
  ({ w with trees := w.trees.map fun t => { t with lights := t.lights.map notice } },
    w.queuedCount)

/-- The lights of a tree whose bounds overlap a turned box, with their poses on the map. -/
def treeLights (t : Tree K) (bounds : RotatedBox K) : List (LightEntry K) :=
  let area := bounds.transformed t.pose.inverseAffine
  (t.lights.filter fun s => s.inTree && s.bounds.intersects area).map fun s =>
    ⟨s.entity, s.light, t.pose.andThen s.pose⟩

/-- The standing walls of a tree whose bounds overlap a box, with their poses on the map. -/
def treeOccluders (t : Tree K) (bounds : Box2 K) : List (OccluderEntry K) :=
  let area := bounds.transformed t.pose.inverseAffine
  (t.occluders.filter fun s =>
    s.occluder.enabled && (s.occluder.bounds.transformed s.pose.toAffine).intersects area).map
    fun s => ⟨s.entity, s.occluder, t.pose.andThen s.pose⟩

def treesOn (w : World K) (map : MapId) : List (Tree K) := w.trees.filter (·.map == map)

/-- Answers queries tree by tree and place by place. -/
def index (w : World K) : SpatialIndex K where
  lights map bounds := (w.treesOn map).flatMap (treeLights · bounds)
  occluders map bounds := (w.treesOn map).flatMap (treeOccluders · bounds)

end World
end Penumbra
