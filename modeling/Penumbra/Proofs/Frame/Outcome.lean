import Penumbra.Frame.Recorder
import Penumbra.Proofs.Frame.Log

/-!
# Outcomes of passes

A device carries out all commands of a pass or refuses one of them, and the state is then the one
that goes with that.  A recorder is told which command to refuse, so that its answer and what it
records are known exactly.

**Results**

* `Pass.run_induction`: what is known of all states that a pass may leave.
* `Pass.outcome_of_run`: what a result tells.
* `Pass.run_recording`, `Pass.run_refusing`: passes carried out by a recorder.
* `askedFor`, `lastGranted`: what a log tells of commands of one kind.
* `Pass.run_watched`, `Pass.run_accepted`: what any device is asked for, and what it carries out.
-/

namespace Penumbra

variable {K S α : Type}

/-- The commands of a pass that starts in a state. -/
def Pass.commands (p : Pass K S α) (s : S) : List (Command K) := (p s).steps.map (·.1)

section Anything

variable {D : Type} [Device D K]

namespace Pass

/-- A refused command is one of the steps. -/
theorem mem_of_performAll {steps : List (Command K × S)} {d d' : D} {message : String} {s' : S}
    (h : performAll steps d = (some (message, s'), d')) : ∃ c, (c, s') ∈ steps := by
  induction steps generalizing d with
  | nil =>
      cases h
  | cons x rest ih =>
      obtain ⟨c, left⟩ := x
      rw [performAll] at h
      split at h
      · obtain ⟨c', hmem⟩ := ih h
        exact ⟨c', List.mem_cons_of_mem _ hmem⟩
      · cases h
        exact ⟨c, List.mem_cons_self ..⟩

variable {p : Pass K S α} {s : S} {d : D}

/-- What is known of the state, of all states that refused commands leave, and of the state at the
end, is known of the state after a pass. -/
theorem run_induction {I : S → Prop} (hs : I s) (hsteps : ∀ x ∈ (p s).steps, I x.2)
    (hok : ∀ {a s'}, (p s).outcome = .ok (a, s') → I s') (d : D) : I (p.run s d).2.1 := by
  rcases hperform : performAll (p s).steps d with ⟨_ | ⟨message, s'⟩, d'⟩
  · cases houtcome : (p s).outcome with
    | error e =>
        rw [run_of_error hperform houtcome]
        exact hs
    | ok x =>
        rw [run_of_ok hperform houtcome]
        exact hok houtcome
  · obtain ⟨c, hmem⟩ := mem_of_performAll hperform
    rw [run_of_refused hperform]
    exact hsteps _ hmem

/-- A pass with a result was refused nothing. -/
theorem outcome_of_run {a : α} (h : (p.run s d).1 = .ok a) :
    (p s).outcome = .ok (a, (p.run s d).2.1) := by
  rcases hperform : performAll (p s).steps d with ⟨_ | ⟨message, s'⟩, d'⟩
  · cases houtcome : (p s).outcome with
    | error e =>
        rw [run_of_error hperform houtcome] at h
        cases h
    | ok x =>
        rw [run_of_ok hperform houtcome] at h ⊢
        cases h
        rfl
  · rw [run_of_refused hperform] at h
    cases h

end Pass

end Anything

section Recording

/-- A recorder after some more commands. -/
def Recorder.keeping (d : Recorder K) (cs : List (Command K)) : Recorder K :=
  { d with commands := d.commands ++ cs }

/-- A recorder that refuses a command once it has carried out a number of them. -/
def Recorder.refusingAfter (d : Recorder K) (n : Nat) : Recorder K := { d with failAfter := some n }

theorem Recorder.keeping_cons (d : Recorder K) (c : Command K) (cs : List (Command K)) :
    (d.keeping [c]).keeping cs = d.keeping (c :: cs) := by
  simp [keeping]

theorem Recorder.length_keeping (d : Recorder K) (cs : List (Command K)) :
    (d.keeping cs).commands.size = d.commands.size + cs.length := by
  rw [keeping, ← Array.length_toList, Array.toList_appendList, List.length_append,
    Array.length_toList]

namespace Pass

/-- A recorder without orders carries out everything. -/
theorem performAll_recording (steps : List (Command K × S)) {d : Recorder K}
    (hd : d.failAfter = none) : performAll steps d = (none, d.keeping (steps.map (·.1))) := by
  induction steps generalizing d with
  | nil =>
      simp [performAll, Recorder.keeping]
  | cons x rest ih =>
      have hperform : Device.perform d x.1 = (.ok (), d.keeping [x.1]) := by
        simp [Device.perform, Recorder.perform, hd, Recorder.keeping]
      rw [performAll, hperform]
      exact (ih (d := d.keeping [x.1]) hd).trans (by rw [d.keeping_cons]; rfl)

/-- A recorder with orders carries out as many commands as it was told, and refuses the next one. -/
theorem performAll_refusing (steps : List (Command K × S)) (d : Recorder K) {n : Nat}
    (hn : n < steps.length) :
    performAll steps (d.refusingAfter n) =
      (some (Recorder.refusal, steps[n].2),
        { d.keeping ((steps.map (·.1)).take n) with failAfter := none }) := by
  induction steps generalizing d n with
  | nil =>
      exact absurd hn (Nat.not_lt_zero n)
  | cons x rest ih =>
      cases n with
      | zero =>
          simp [performAll, Device.perform, Recorder.perform, Recorder.refusingAfter,
            Recorder.keeping]
      | succ n =>
          have hperform : Device.perform (d.refusingAfter (n + 1)) x.1 =
              (.ok (), (d.keeping [x.1]).refusingAfter n) := by
            simp [Device.perform, Recorder.perform, Recorder.refusingAfter, Recorder.keeping]
          have hrest := ih (d.keeping [x.1]) (Nat.lt_of_succ_lt_succ hn)
          rw [performAll, hperform]
          simp only [hrest, d.keeping_cons, List.map_cons, List.take_succ_cons,
            List.getElem_cons_succ]

/-- A recorder carries out what there is, when that is no more than it was told. -/
theorem performAll_spared (steps : List (Command K × S)) (d : Recorder K) {n : Nat}
    (hn : steps.length ≤ n) :
    performAll steps (d.refusingAfter n) =
      (none, (d.keeping (steps.map (·.1))).refusingAfter (n - steps.length)) := by
  induction steps generalizing d n with
  | nil =>
      simp [performAll, Recorder.keeping]
  | cons x rest ih =>
      obtain ⟨n, rfl⟩ : ∃ m, n = m + 1 := ⟨n - 1, by simp at hn; omega⟩
      have hperform : Device.perform (d.refusingAfter (n + 1)) x.1 =
          (.ok (), (d.keeping [x.1]).refusingAfter n) := by
        simp [Device.perform, Recorder.perform, Recorder.refusingAfter, Recorder.keeping]
      have hrest := ih (d.keeping [x.1]) (Nat.le_of_succ_le_succ hn)
      rw [performAll, hperform]
      simp only [hrest, d.keeping_cons, List.map_cons, List.length_cons, Nat.add_sub_add_right]

variable (p : Pass K S α) (s : S)

/-- What a pass answers when nothing is refused, and the state that it leaves. -/
def ending : Except Failure α × S :=
  match (p s).outcome with
  | .ok (a, s') => (.ok a, s')
  | .error e => (.error e, s)

theorem run_eq_ending {D : Type} [Device D K] {d d' : D}
    (h : performAll (p s).steps d = (none, d')) :
    p.run s d = ((p.ending s).1, (p.ending s).2, d') := by
  cases houtcome : (p s).outcome with
  | error e =>
      rw [run_of_error h houtcome, ending, houtcome]
  | ok x =>
      rw [run_of_ok h houtcome, ending, houtcome]

theorem run_recording {d : Recorder K} (hd : d.failAfter = none) :
    p.run s d = ((p.ending s).1, (p.ending s).2, d.keeping (p.commands s)) :=
  run_eq_ending p s (performAll_recording _ hd)

theorem run_refusing (d : Recorder K) {n : Nat} (hn : n < (p s).steps.length) :
    p.run s (d.refusingAfter n) =
      (.error (.error (.backend Recorder.refusal)), (p s).steps[n].2,
        { d.keeping ((p.commands s).take n) with failAfter := none }) :=
  run_of_refused (performAll_refusing _ d hn)

theorem run_spared (d : Recorder K) {n : Nat} (hn : (p s).steps.length ≤ n) :
    p.run s (d.refusingAfter n) =
      ((p.ending s).1, (p.ending s).2,
        (d.keeping (p.commands s)).refusingAfter (n - (p s).steps.length)) :=
  run_eq_ending p s (performAll_spared _ d hn)

end Pass

end Recording

section Watching

variable {D : Type} [Device D K]

/-- The commands of a log that were carried out. -/
def accepted (log : List (Command K × Bool)) : List (Command K) := (log.filter (·.2)).map (·.1)

theorem accepted_append (log more : List (Command K × Bool)) :
    accepted (log ++ more) = accepted log ++ accepted more := by
  simp [accepted]

omit [Device D K] in
theorem accepted_new (device : D) : accepted (Logged.new device : Logged D K).log = [] := rfl

theorem accepted_carriedOut (steps : List (Command K × S)) :
    accepted (carriedOut steps) = steps.map (·.1) := by
  simp [accepted, carriedOut, List.filter_map, Function.comp_def]

section Kinds

variable {β : Type} (kind : Command K → Option β)

/-- What a device was asked for by commands of a kind, and whether it granted that. -/
def askedFor (log : List (Command K × Bool)) : List (β × Bool) :=
  log.filterMap fun asked => (kind asked.1).map fun b => (b, asked.2)

/-- What a device granted last to a command of a kind. -/
def lastGranted (log : List (Command K × Bool)) : Option β :=
  ((askedFor kind log).filter (·.2)).getLast?.map (·.1)

theorem askedFor_append (log more : List (Command K × Bool)) :
    askedFor kind (log ++ more) = askedFor kind log ++ askedFor kind more :=
  List.filterMap_append

variable {kind}

theorem askedFor_of_none {log : List (Command K × Bool)}
    (h : ∀ asked ∈ log, kind asked.1 = none) : askedFor kind log = [] := by
  refine List.filterMap_eq_nil_iff.mpr ?_
  intro asked hasked
  rw [h asked hasked]
  rfl

/-- What is not granted changes nothing of what was granted. -/
theorem lastGranted_append_of_refused {log more : List (Command K × Bool)}
    (h : ∀ asked ∈ askedFor kind more, asked.2 = false) :
    lastGranted kind (log ++ more) = lastGranted kind log := by
  have hnone : (askedFor kind more).filter (·.2) = [] := by
    rw [List.filter_eq_nil_iff]
    intro asked hasked
    simp [h asked hasked]
  rw [lastGranted, askedFor_append, List.filter_append, hnone, List.append_nil]
  rfl

theorem lastGranted_refused (log : List (Command K × Bool)) (c : Command K) :
    lastGranted kind (log ++ [(c, false)]) = lastGranted kind log := by
  refine lastGranted_append_of_refused ?_
  cases hc : kind c <;> simp [askedFor, hc]

/-- What was asked for last and granted is what was granted last. -/
theorem lastGranted_of_getLast? {log : List (Command K × Bool)} {b : β}
    (h : (askedFor kind log).getLast? = some (b, true)) : lastGranted kind log = some b := by
  obtain ⟨before, hbefore⟩ := List.getLast?_eq_some_iff.mp h
  rw [lastGranted, hbefore, List.filter_append]
  simp

end Kinds

namespace Pass

variable (p : Pass K S α) (s : S)

/-- A pass on any device ends as its script says, unless a command is refused.  Then the state is
the one that goes with that command, and nothing more is asked for. -/
theorem run_watched (d : Logged D K) :
    (p.run s d).1 = (p.ending s).1 ∧ (p.run s d).2.1 = (p.ending s).2 ∧
        (p.run s d).2.2.log = d.log ++ carriedOut (p s).steps ∨
      ∃ done c left rest message, (p s).steps = done ++ (c, left) :: rest ∧
        (p.run s d).1 = .error (.error (.backend message)) ∧ (p.run s d).2.1 = left ∧
        (p.run s d).2.2.log = d.log ++ carriedOut done ++ [(c, false)] := by
  rcases hperform : performAll (p s).steps d with ⟨refused, d'⟩
  have hdevice := performAll_watched (p s).steps d
  rw [hperform] at hdevice
  rcases hdevice with ⟨hnone, hlog⟩ | ⟨done, c, left, rest, message, hsteps, hsome, hlog⟩
  · obtain rfl : refused = none := hnone
    rw [run_eq_ending p s hperform]
    exact Or.inl ⟨rfl, rfl, hlog⟩
  · obtain rfl : refused = some (message, left) := hsome
    rw [run_of_refused hperform]
    exact Or.inr ⟨done, c, left, rest, message, hsteps, rfl, rfl, hlog⟩

/-- A device is asked for commands of the pass only. -/
theorem run_asked (d : Logged D K) :
    ∃ more, (p.run s d).2.2.log = d.log ++ more ∧ ∀ asked ∈ more, asked.1 ∈ p.commands s := by
  rcases p.run_watched s d with ⟨-, -, hlog⟩ | ⟨done, c, left, rest, message, hsteps, -, -, hlog⟩
  · refine ⟨carriedOut (p s).steps, hlog, ?_⟩
    intro asked hasked
    obtain ⟨x, hx, rfl⟩ := List.mem_map.mp hasked
    exact List.mem_map_of_mem hx
  · refine ⟨carriedOut done ++ [(c, false)], by rw [hlog, List.append_assoc], ?_⟩
    intro asked hasked
    rw [commands, hsteps, List.map_append]
    rcases List.mem_append.mp hasked with hasked | hasked
    · obtain ⟨x, hx, rfl⟩ := List.mem_map.mp hasked
      exact List.mem_append_left _ (List.mem_map_of_mem hx)
    · rw [List.mem_singleton.mp hasked]
      simp

/-- A pass without commands of a kind asks for none. -/
theorem askedFor_run {β : Type} {kind : Command K → Option β} {p : Pass K S α} {s : S}
    (h : ∀ c ∈ p.commands s, kind c = none) (d : Logged D K) :
    askedFor kind (p.run s d).2.2.log = askedFor kind d.log := by
  obtain ⟨more, hlog, hmore⟩ := p.run_asked s d
  rw [hlog, askedFor_append, askedFor_of_none fun asked hasked => h _ (hmore asked hasked),
    List.append_nil]

/-- What any device carries out of a pass. -/
theorem run_accepted (d : Logged D K) :
    (p.run s d).1 = (p.ending s).1 ∧ (p.run s d).2.1 = (p.ending s).2 ∧
        accepted (p.run s d).2.2.log = accepted d.log ++ p.commands s ∨
      ∃ done c left rest message, (p s).steps = done ++ (c, left) :: rest ∧
        (p.run s d).1 = .error (.error (.backend message)) ∧ (p.run s d).2.1 = left ∧
        accepted (p.run s d).2.2.log = accepted d.log ++ done.map (·.1) := by
  rcases p.run_watched s d with
    ⟨hanswer, hstate, hlog⟩ | ⟨done, c, left, rest, message, hsteps, hanswer, hstate, hlog⟩
  · refine Or.inl ⟨hanswer, hstate, ?_⟩
    rw [hlog, accepted_append, accepted_carriedOut]
    rfl
  · refine Or.inr ⟨done, c, left, rest, message, hsteps, hanswer, hstate, ?_⟩
    rw [hlog, accepted_append, accepted_append, accepted_carriedOut]
    simp [accepted]

/-- Any device carries out the beginning of a pass. -/
theorem accepted_run (d : Logged D K) :
    ∃ cs, cs <+: p.commands s ∧ accepted (p.run s d).2.2.log = accepted d.log ++ cs := by
  rcases p.run_accepted s d with ⟨-, -, hlog⟩ | ⟨done, c, left, rest, message, hsteps, -, -, hlog⟩
  · exact ⟨p.commands s, List.prefix_refl _, hlog⟩
  · refine ⟨done.map (·.1), ⟨((c, left) :: rest).map (·.1), ?_⟩, hlog⟩
    rw [commands, hsteps, List.map_append]

end Pass

end Watching

end Penumbra
