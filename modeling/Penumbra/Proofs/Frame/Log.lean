import Penumbra.Frame.Recorder
import Penumbra.Proofs.Frame.Course

/-!
# What a device is asked for

Any device can be watched: the log has the commands that it is asked for, and whether it carries
them out.  A device may refuse whatever it likes, and it is not asked for more in that frame.

**Results**

* `Logged`: a device with its log.
* `leftover`: the batch that was refused last.
* `Pass.performAll_watched`: what is asked for, whatever is refused.
* `Keeps`, `Leads`: what is known of all states that refused commands may leave.
* `Keeps.performAll`, `Script.Settles.run`: what is known after a pass, whatever is refused.
* `drawAll`: any number of frames.
-/

namespace Penumbra

variable {D K S : Type}

/-- A device, and what it was asked for and whether it carried that out. -/
structure Logged (D K : Type) where
  device : D
  log : List (Command K × Bool)

namespace Logged

/-- A device that was asked for nothing. -/
def new (device : D) : Logged D K := ⟨device, []⟩

/-- The device is asked for a command. -/
def perform [Device D K] (d : Logged D K) (c : Command K) : Except String Unit × Logged D K :=
  match Device.perform d.device c with
  | (.ok (), device) => (.ok (), ⟨device, d.log ++ [(c, true)]⟩)
  | (.error message, device) => (.error message, ⟨device, d.log ++ [(c, false)]⟩)

instance [Device D K] : Device (Logged D K) K where
  perform := Logged.perform

theorem perform_of_ok [Device D K] {d : Logged D K} {c : Command K} {device : D}
    (h : Device.perform d.device c = (.ok (), device)) :
    Device.perform d c = (.ok (), (⟨device, d.log ++ [(c, true)]⟩ : Logged D K)) := by
  change d.perform c = _
  rw [Logged.perform, h]

theorem perform_of_error [Device D K] {d : Logged D K} {c : Command K} {message : String}
    {device : D} (h : Device.perform d.device c = (.error message, device)) :
    Device.perform d c = (.error message, (⟨device, d.log ++ [(c, false)]⟩ : Logged D K)) := by
  change d.perform c = _
  rw [Logged.perform, h]

end Logged

section Leftover

/-- What a command draws of lights without shadows. -/
def Command.batch? : Command K → Option (List (LightVertex K) × List UInt16)
  | .drawLightBatch vertices indices => some (vertices, indices)
  | _ => none

/-- The refused batch, after a device was asked for one more command. -/
def leftoverAfter (old : List (LightVertex K)) (asked : Command K × Bool) :
    List (LightVertex K) :=
  match asked.1.batch? with
  | none => old
  | some (vertices, _) => if asked.2 then [] else vertices

/-- The corners of the batch that was asked for last, if it was refused. -/
def leftover (log : List (Command K × Bool)) : List (LightVertex K) :=
  log.foldl leftoverAfter []

/-- The steps of a script as a log. -/
def carriedOut (steps : List (Command K × S)) : List (Command K × Bool) :=
  steps.map fun x => (x.1, true)

theorem carriedOut_eq (steps : List (Command K × S)) :
    carriedOut steps = (steps.map (·.1)).map fun c => (c, true) := by
  simp [carriedOut, Function.comp_def]

theorem leftover_append (log more : List (Command K × Bool)) :
    leftover (log ++ more) = more.foldl leftoverAfter (leftover log) :=
  List.foldl_append

end Leftover

namespace Pass

variable [Device D K] {α : Type} {p : Pass K S α} {s : S} {d d' : D}

theorem run_of_refused {message : String} {s' : S}
    (h : performAll (p s).steps d = (some (message, s'), d')) :
    p.run s d = (.error (.error (.backend message)), s', d') := by
  simp only [run, h]

theorem run_of_ok {x : α × S} (h : performAll (p s).steps d = (none, d'))
    (houtcome : (p s).outcome = .ok x) : p.run s d = (.ok x.1, x.2, d') := by
  simp only [run, h, houtcome]

theorem run_of_error {e : Failure} (h : performAll (p s).steps d = (none, d'))
    (houtcome : (p s).outcome = .error e) : p.run s d = (.error e, s, d') := by
  simp only [run, h, houtcome]

end Pass

section Watched

/-- A device that is watched carries out all steps, or those before one that it refuses. -/
theorem Pass.performAll_watched [Device D K] (steps : List (Command K × S)) (d : Logged D K) :
    ((Pass.performAll steps d).1 = none ∧
      (Pass.performAll steps d).2.log = d.log ++ carriedOut steps) ∨
    ∃ done c left rest message, steps = done ++ (c, left) :: rest ∧
      (Pass.performAll steps d).1 = some (message, left) ∧
      (Pass.performAll steps d).2.log = d.log ++ carriedOut done ++ [(c, false)] := by
  induction steps generalizing d with
  | nil =>
      exact Or.inl ⟨rfl, by simp [Pass.performAll, carriedOut]⟩
  | cons x rest ih =>
      obtain ⟨c, s⟩ := x
      rcases hdevice : Device.perform d.device c with ⟨message | ⟨⟩, device⟩
      · have hperform := Logged.perform_of_error hdevice
        refine Or.inr ⟨[], c, s, rest, message, rfl, ?_, ?_⟩
        · simp [Pass.performAll, hperform]
        · simp [Pass.performAll, hperform, carriedOut]
      · have hperform := Logged.perform_of_ok hdevice
        simp only [Pass.performAll, hperform]
        rcases ih ⟨device, d.log ++ [(c, true)]⟩ with
          ⟨hnone, hlog⟩ | ⟨done, c', left, later, message, hsteps, hsome, hlog⟩
        · exact Or.inl ⟨hnone, by simpa [carriedOut] using hlog⟩
        · refine Or.inr ⟨(c, s) :: done, c', left, later, message, ?_, hsome, ?_⟩
          · rw [hsteps]
            rfl
          · simpa [carriedOut] using hlog

end Watched

section Keeps

/-- Each refused command leaves a state that goes with the batch that is then refused. -/
def Keeps (I : S → List (LightVertex K) → Prop) (old : List (LightVertex K)) :
    List (Command K × S) → Prop
  | [] => True
  | (c, s) :: rest =>
    I s (leftoverAfter old (c, false)) ∧ Keeps I (leftoverAfter old (c, true)) rest

/-- Steps keep what is known of states, and lead from one refused batch to another. -/
structure Leads (I : S → List (LightVertex K) → Prop) (old : List (LightVertex K))
    (steps : List (Command K × S)) (new : List (LightVertex K)) : Prop where
  keeps : Keeps I old steps
  leftover_eq : (carriedOut steps).foldl leftoverAfter old = new

theorem Leads.append {I : S → List (LightVertex K) → Prop} {old mid new : List (LightVertex K)}
    {first rest : List (Command K × S)} (hfirst : Leads I old first mid)
    (hrest : Leads I mid rest new) : Leads I old (first ++ rest) new := by
  obtain ⟨hkeeps, hmid⟩ := hfirst
  obtain ⟨hrest, hnew⟩ := hrest
  constructor
  · induction first generalizing old with
    | nil =>
        obtain rfl : old = mid := hmid
        exact hrest
    | cons x first ih =>
        exact ⟨hkeeps.1, ih hkeeps.2 hmid⟩
  · rw [← hnew, ← hmid, carriedOut, List.map_append, List.foldl_append]
    rfl

theorem Keeps.map {T : Type} {I : S → List (LightVertex K) → Prop}
    {J : T → List (LightVertex K) → Prop} {f : S → T} (hf : ∀ s old, I s old → J (f s) old)
    {old : List (LightVertex K)} {steps : List (Command K × S)} (h : Keeps I old steps) :
    Keeps J old (steps.map fun x => (x.1, f x.2)) := by
  induction steps generalizing old with
  | nil =>
      trivial
  | cons x rest ih =>
      exact ⟨hf _ _ h.1, ih h.2⟩

/-- What is known of the state that a refused command leaves. -/
theorem Keeps.refused {I : S → List (LightVertex K) → Prop} {old : List (LightVertex K)}
    {done rest : List (Command K × S)} {c : Command K} {left : S}
    (h : Keeps I old (done ++ (c, left) :: rest)) :
    I left (leftoverAfter ((carriedOut done).foldl leftoverAfter old) (c, false)) := by
  induction done generalizing old with
  | nil =>
      exact h.1
  | cons x done ih =>
      exact ih h.2

/-- A device carries out all steps, or it leaves what is known of the step that it refuses. -/
theorem Keeps.performAll [Device D K] {I : S → List (LightVertex K) → Prop}
    {steps : List (Command K × S)} {d : Logged D K} (h : Keeps I (leftover d.log) steps) :
    ((Pass.performAll steps d).1 = none ∧
      (Pass.performAll steps d).2.log = d.log ++ carriedOut steps) ∨
    ∃ message s, (Pass.performAll steps d).1 = some (message, s) ∧
      I s (leftover (Pass.performAll steps d).2.log) := by
  rcases Pass.performAll_watched steps d with
    hall | ⟨done, c, left, rest, message, rfl, hsome, hlog⟩
  · exact Or.inl hall
  · refine Or.inr ⟨message, left, hsome, ?_⟩
    rw [hlog, leftover_append, leftover_append]
    exact h.refused

/-- A script leaves what is known of a state, whatever a device refuses. -/
structure Script.Settles {α : Type} (I : S → List (LightVertex K) → Prop) (s : S)
    (old : List (LightVertex K)) (script : Script K S α) : Prop where
  keeps : Keeps I old script.steps
  ok : ∀ {a s'}, script.outcome = .ok (a, s') →
    I s' ((carriedOut script.steps).foldl leftoverAfter old)
  error : ∀ {e}, script.outcome = .error e →
    I s ((carriedOut script.steps).foldl leftoverAfter old)

theorem Script.Settles.run {α : Type} [Device D K] {I : S → List (LightVertex K) → Prop}
    {p : Pass K S α} {s : S} {d : Logged D K} (h : (p s).Settles I s (leftover d.log)) :
    I (p.run s d).2.1 (leftover (p.run s d).2.2.log) := by
  rcases hperform : Pass.performAll (p s).steps d with ⟨refused, d'⟩
  have hdevice := h.keeps.performAll
  rw [hperform] at hdevice
  rcases hdevice with ⟨hnone, hlog⟩ | ⟨message, s', hsome, hI⟩
  · obtain rfl : refused = none := hnone
    have hlog : d'.log = d.log ++ carriedOut (p s).steps := hlog
    cases houtcome : (p s).outcome with
    | error e =>
        rw [Pass.run_of_error hperform houtcome, hlog, leftover_append]
        exact h.error houtcome
    | ok x =>
        rw [Pass.run_of_ok hperform houtcome, hlog, leftover_append]
        exact h.ok houtcome
  · obtain rfl : refused = some (message, s') := hsome
    rw [Pass.run_of_refused hperform]
    exact hI

/-- A recorder without orders refuses nothing. -/
theorem performAll_recorder (steps : List (Command K × S)) {d : Logged (Recorder K) K}
    (hd : d.device.failAfter = none) :
    (Pass.performAll steps d).1 = none ∧
      (Pass.performAll steps d).2.log = d.log ++ carriedOut steps := by
  induction steps generalizing d with
  | nil =>
      exact ⟨rfl, by simp [Pass.performAll, carriedOut]⟩
  | cons x rest ih =>
      have hdevice : Device.perform d.device x.1 =
          (.ok (), { d.device with commands := d.device.commands.push x.1 }) := by
        simp [Device.perform, Recorder.perform, hd]
      have hperform := Logged.perform_of_ok hdevice
      simp only [Pass.performAll, hperform]
      simpa [carriedOut] using ih (d := ⟨{ d.device with
        commands := d.device.commands.push x.1 }, d.log ++ [(x.1, true)]⟩) hd

/-- A pass with a result was refused nothing. -/
theorem Pass.outcome_of_run_ok {α : Type} [Device D K] {p : Pass K S α} {s : S} {d : Logged D K}
    {a : α} (h : (p.run s d).1 = .ok a) :
    (∃ s', (p s).outcome = .ok (a, s')) ∧
      (p.run s d).2.2.log = d.log ++ carriedOut (p s).steps := by
  rcases hperform : Pass.performAll (p s).steps d with ⟨refused, d'⟩
  have hdevice := Pass.performAll_watched (p s).steps d
  rw [hperform] at hdevice
  rcases hdevice with ⟨hnone, hlog⟩ | ⟨done, c, left, rest, message, -, hsome, -⟩
  · obtain rfl : refused = none := hnone
    cases houtcome : (p s).outcome with
    | error e =>
        rw [Pass.run_of_error hperform houtcome] at h
        cases h
    | ok x =>
        rw [Pass.run_of_ok hperform houtcome] at h ⊢
        cases h
        exact ⟨⟨x.2, rfl⟩, hlog⟩
  · obtain rfl : refused = some (message, left) := hsome
    rw [Pass.run_of_refused hperform] at h
    cases h

theorem Pass.run_recorder {α : Type} {p : Pass K S α} {s s' : S} {d : Logged (Recorder K) K}
    (hd : d.device.failAfter = none) {a : α} (h : (p s).outcome = .ok (a, s')) :
    (p.run s d).1 = .ok a ∧ (p.run s d).2.2.log = d.log ++ carriedOut (p s).steps := by
  obtain ⟨hnone, hlog⟩ := performAll_recorder (p s).steps hd
  rcases hperform : Pass.performAll (p s).steps d with ⟨refused, d'⟩
  rw [hperform] at hnone hlog
  obtain rfl : refused = none := hnone
  rw [Pass.run_of_ok hperform h]
  exact ⟨rfl, hlog⟩

end Keeps

def drawAll [Scalar K] [Device D K] : List (FrameCall K) → Renderer K → D → Renderer K × D
  | [], r, d => (r, d)
  | call :: rest, r, d =>
    let (_, r', d') := call.pass.run r d
    drawAll rest r' d'

end Penumbra
