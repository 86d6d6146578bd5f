/-!
# Failures

What can go wrong is told apart by its cause.  Errors are conditions that a caller has to expect: a
file that is missing, an atlas that is too wide, a device that refuses a command.  Faults leave
nothing to go on with: a broken promise between the parts of the library, or a size that no machine
has room for.

**Contents**

* `LightingError` with its texts in `LightingError.message`.
* `Fault`: what ends everything.
* `Failure`: an error or a fault.
-/

namespace Penumbra

/-- A condition that callers have to expect. -/
inductive LightingError where
  /-- The masks side by side are wider than a texture may be. -/
  | atlasTooWide (width limit : Nat)
  | configUnreadable
  | configInvalid
  | backend (message : String)
deriving DecidableEq, Repr, Inhabited

def LightingError.message : LightingError → String
  | atlasTooWide width limit =>
    "light mask atlas is " ++ toString width ++ "px wide, exceeding the maximum texture size of " ++
      toString limit ++ "px"
  | configUnreadable => "failed to read lighting config"
  | configInvalid => "invalid lighting config"
  | backend message => message

/-- A broken promise between parts of the library, or a size without bounds. -/
inductive Fault where
  /-- A value is to be brought into an interval whose ends are not in order. -/
  | unorderedInterval
  | phaseOrder
  | batchFull
  /-- There are not as many shadow maps as lights with shadows. -/
  | instanceCount
  | maskCount
  /-- More segments cast shadows than bound the field of view. -/
  | segmentCount
  /-- A size is beyond what can be counted or addressed. -/
  | sizeExceeded
deriving DecidableEq, Repr, Inhabited

inductive Failure where
  | error (e : LightingError)
  | fault (f : Fault)
deriving DecidableEq, Repr, Inhabited

end Penumbra
