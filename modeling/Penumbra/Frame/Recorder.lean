import Penumbra.Frame.Command

/-!
# A device that records

The recorder keeps the commands that it carries out.  It can be told to refuse a command to come,
once.
-/

namespace Penumbra

/-- A device that keeps its commands. -/
structure Recorder (K : Type) where
  capabilities : Capabilities
  commands : Array (Command K)
  /-- Commands to carry out before one is refused; `none` when none will be. -/
  failAfter : Option Nat

namespace Recorder

variable {K : Type}

def new (capabilities : Capabilities) : Recorder K := ⟨capabilities, #[], none⟩

/-- What a device can do that is as good as any. -/
def generous : Capabilities := ⟨8192, true⟩

def refusal : String := "injected failure"

/-- Keeps a command, or refuses it when its turn has come. -/
def perform (r : Recorder K) (c : Command K) : Except String Unit × Recorder K :=
  match r.failAfter with
  | some 0 => (.error refusal, { r with failAfter := none })
  | some (n + 1) => (.ok (), { r with commands := r.commands.push c, failAfter := some n })
  | none => (.ok (), { r with commands := r.commands.push c })

instance : Device (Recorder K) K where
  perform := Recorder.perform

end Recorder
end Penumbra
