import Penumbra.Config.Text

/-!
# A settings file that is watched

A watch looks at a file from time to time and reads it when the time of its last change is another
one than that of the last successful look.  Looking takes two steps, and the file may change in
between: the time is read first, so that a change after it is noticed at the next look.

**Contents**

* `StoredText`: a file, if there is one.
* `Config.load`: the settings in a file.
* `ConfigWatch.poll`, made of `ConfigWatch.modified` and `ConfigWatch.reload`.
-/

namespace Penumbra

structure StoredText where
  text : String
  modified : Int
deriving DecidableEq, Repr, Inhabited

/-- The settings in a file, which must be there. -/
def Config.load : Option StoredText → Except LightingError (Config Float32)
  | some file => ofText file.text
  | none => .error .configUnreadable

/-- Remembers when the file was last changed that was last read. -/
structure ConfigWatch where
  /-- The time of the last change that was taken notice of. -/
  seen : Option Int
deriving DecidableEq, Repr, Inhabited

namespace ConfigWatch

def new : ConfigWatch := ⟨none⟩

/-- The first step of a look: when the file was last changed. -/
def modified (file : Option StoredText) : Except LightingError Int :=
  match file with
  | some file => .ok file.modified
  | none => .error .configUnreadable

/--
The second step of a look, with the time of the first: the settings, or nothing when the time was
seen before.  The time is only remembered when the settings can be read.
-/
def reload (w : ConfigWatch) (modified : Int) (file : Option StoredText) :
    Except LightingError (Option (Config Float32)) × ConfigWatch :=
  if w.seen = some modified then (.ok none, w)
  else
    match Config.load file with
    | .ok config => (.ok (some config), ⟨some modified⟩)
    | .error e => (.error e, w)

/-- Both steps of a look at a file that stays as it is. -/
def poll (w : ConfigWatch) (file : Option StoredText) :
    Except LightingError (Option (Config Float32)) × ConfigWatch :=
  match modified file with
  | .ok time => w.reload time file
  | .error e => (.error e, w)

end ConfigWatch
end Penumbra
