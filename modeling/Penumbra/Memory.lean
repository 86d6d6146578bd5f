import Penumbra.Failure

/-!
# Room in memory

Buffers get room for all that they may ever hold when they are made.  How much that is follows from
numbers that a user may choose freely, so that it can be more than any memory has.

**Contents**

* `Memory.mostBytes`: the largest buffer.
* `Memory.reserve`: room for a number of items.
-/

namespace Penumbra.Memory

/-- The most bytes of a buffer, because distances inside it are signed 64-bit numbers. -/
def mostBytes : Nat := 9223372036854775807

/-- Makes room for a number of items that take some bytes each. -/
def reserve (count bytesPerItem : Nat) : Except Fault Unit :=
  if count * bytesPerItem ≤ mostBytes then .ok () else .error .sizeExceeded

end Penumbra.Memory
