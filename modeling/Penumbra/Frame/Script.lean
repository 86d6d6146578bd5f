import Penumbra.Failure
import Penumbra.Frame.Command

/-!
# Scripts

What a pass asks of a device does not depend on what the device answers, as long as the device does
not refuse.  So a pass is a pure function of its state: it gives the commands in order, each with the
state that is left behind when that command is refused, and the state and the result when none is.

**Contents**

* `Script`: the commands and the outcome; `Pass`: a script for every state.
* `Pass.issue`, `Pass.get`, `Pass.modify`, `Pass.fail`, `Pass.onRefusal`: how passes are put
  together.
* `Pass.run`: a pass carried out by a device.
-/

namespace Penumbra

/-- The commands of a pass and its outcome. -/
structure Script (K S α : Type) where
  /-- The commands in order, each with the state that is left if it is refused. -/
  steps : List (Command K × S)
  outcome : Except Failure (α × S)

/-- A part of a frame: a script for every state that it may start in. -/
def Pass (K S α : Type) : Type := S → Script K S α

namespace Pass

variable {K S α β : Type}

protected def pure (a : α) : Pass K S α := fun s => ⟨[], .ok (a, s)⟩

/-- One pass after the other; a pass that fails by itself is the last one. -/
protected def bind (p : Pass K S α) (next : α → Pass K S β) : Pass K S β := fun s =>
  let script := p s
  match script.outcome with
  | .error e => ⟨script.steps, .error e⟩
  | .ok (a, s') =>
    let rest := next a s'
    ⟨script.steps ++ rest.steps, rest.outcome⟩

instance : Monad (Pass K S) where
  pure := Pass.pure
  bind := Pass.bind

def issue (c : Command K) : Pass K S Unit := fun s => ⟨[(c, s)], .ok ((), s)⟩

def get : Pass K S S := fun s => ⟨[], .ok (s, s)⟩

def modify (f : S → S) : Pass K S Unit := fun s => ⟨[], .ok ((), f s)⟩

def fail (e : Failure) : Pass K S α := fun _ => ⟨[], .error e⟩

def ofFault (result : Except Fault α) : Pass K S α :=
  match result with
  | .ok a => Pass.pure a
  | .error f => fail (.fault f)

/-- What is left behind when a command is refused, put in order. -/
def onRefusal (f : S → S) (p : Pass K S α) : Pass K S α := fun s =>
  let script := p s
  { script with steps := script.steps.map fun (c, s') => (c, f s') }

/-- A pass over a part of a larger state. -/
def within {T : Type} (part : T → S) (put : T → S → T) (p : Pass K S α) : Pass K T α := fun t =>
  let script := p (part t)
  { steps := script.steps.map fun (c, s) => (c, put t s)
    outcome := script.outcome.map fun (a, s) => (a, put t s) }

/-- Carries out commands up to the first one that is refused. -/
def performAll {D : Type} [Device D K] : List (Command K × S) → D → Option (String × S) × D
  | [], d => (none, d)
  | (c, s) :: rest, d =>
    match Device.perform d c with
    | (.ok (), d') => performAll rest d'
    | (.error message, d') => (some (message, s), d')

/--
Carries out a pass.  A pass that fails by itself leaves the state as it was, one with a command that
is refused leaves what that command says.
-/
def run {D : Type} [Device D K] (p : Pass K S α) (s : S) (d : D) : Except Failure α × S × D :=
  let script := p s
  match performAll script.steps d with
  | (some (message, s'), d') => (.error (.error (.backend message)), s', d')
  | (none, d') =>
    match script.outcome with
    | .ok (a, s') => (.ok a, s', d')
    | .error e => (.error e, s, d')

end Pass
end Penumbra
