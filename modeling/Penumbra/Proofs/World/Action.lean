import Penumbra.World.Basic

/-!
# Runs of a world

All that a caller can do with a world is one type of actions, so that a run is a list of them.  The
changes of lights that a query notices only after a flush form a type of their own.

**Contents**

* `World.Adjustment`, `World.Action`, `World.Answer`: what a caller does and is told.
* `World.perform`, `World.run`: one action, and any number of them.
* `World.run_induction`: what each action keeps, a run keeps.
-/

namespace Penumbra
namespace World

/-- A change of a light, or of the place of its entity, that waits for the next flush. -/
inductive Adjustment (K : Type) where
  | change (entity : EntityId) (change : LightChange K)
  | move (entity : EntityId) (pose : Pose K)
deriving Repr, Inhabited

/-- Something that a caller does with a world. -/
inductive Action (K : Type) where
  | addTree (map : MapId) (pose : Pose K)
  | setTreePose (tree : TreeId) (pose : Pose K)
  | spawnLight (tree : TreeId) (pose : Pose K) (light : Light K)
  | spawnOccluder (tree : TreeId) (pose : Pose K) (occluder : Occluder K)
  | despawn (entity : EntityId)
  | adjust (adjustment : Adjustment K)
  | replaceOccluder (entity : EntityId) (occluder : Occluder K)
  | setOccluderPose (entity : EntityId) (pose : Pose K)
  | flush
deriving Repr, Inhabited

inductive Answer (K : Type) where
  | done
  | tree (id : TreeId)
  | spawned (entity : Option EntityId)
  | told (found : Bool)
  | changed (result : Option (Option Bool))
  | replaced (before : Option (Occluder K))
  | counted (lights : Nat)
deriving Repr, Inhabited

variable {K : Type} [Scalar K]

/-- Makes a change that waits for the next flush. -/
def adjust (w : World K) : Adjustment K → World K × Answer K
  | .change entity change => (w.changeLight entity change).map id .changed
  | .move entity pose => (w.setLightPose entity pose).map id .told

/-- Does what a caller asks for. -/
def perform (w : World K) : Action K → World K × Answer K
  | .addTree map pose => (w.addTree map pose).map id .tree
  | .setTreePose tree pose => (w.setTreePose tree pose, .done)
  | .spawnLight tree pose light => (w.spawnLight tree pose light).map id .spawned
  | .spawnOccluder tree pose occluder => (w.spawnOccluder tree pose occluder).map id .spawned
  | .despawn entity => (w.despawn entity).map id .told
  | .adjust adjustment => w.adjust adjustment
  | .replaceOccluder entity occluder =>
    (w.replaceOccluder entity occluder, .replaced (w.occluder? entity))
  | .setOccluderPose entity pose => (w.setOccluderPose entity pose).map id .told
  | .flush => w.flush.map id .counted

/-- Does one thing after the other. -/
def run (w : World K) : List (Action K) → World K × List (Answer K)
  | [] => (w, [])
  | action :: rest =>
    let (w', answer) := w.perform action
    let (w'', answers) := w'.run rest
    (w'', answer :: answers)

/-- Makes one change of a light after the other. -/
def adjustAll (w : World K) (adjustments : List (Adjustment K)) : World K :=
  (w.run (adjustments.map .adjust)).1

@[simp] theorem run_nil (w : World K) : w.run [] = (w, []) := rfl

@[simp] theorem run_cons_fst (w : World K) (action : Action K) (rest : List (Action K)) :
    (w.run (action :: rest)).1 = ((w.perform action).1.run rest).1 := rfl

@[simp] theorem run_cons_snd (w : World K) (action : Action K) (rest : List (Action K)) :
    (w.run (action :: rest)).2 =
      (w.perform action).2 :: ((w.perform action).1.run rest).2 := rfl

theorem run_append_fst (w : World K) (first rest : List (Action K)) :
    (w.run (first ++ rest)).1 = ((w.run first).1.run rest).1 := by
  induction first generalizing w with
  | nil =>
      rfl
  | cons action first ih =>
      simp [ih]

/-- What each action keeps, a run keeps. -/
theorem run_induction {P : World K → Prop}
    (hstep : ∀ w action, P w → P (w.perform action).1) (actions : List (Action K)) :
    ∀ w, P w → P (w.run actions).1 := by
  induction actions with
  | nil =>
      intro w hw
      exact hw
  | cons action rest ih =>
      intro w hw
      exact ih _ (hstep w action hw)

end World
end Penumbra
