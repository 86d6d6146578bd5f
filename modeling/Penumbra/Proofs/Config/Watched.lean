import Mathlib.Data.List.Nodup
import Penumbra.Config.Watch

/-!
# A settings file that changes while it is watched

Others write a settings file and remove it whenever they like, also between the two steps of a look.
A file that is written gets a time that it never had before.  The watch remembers the time that it
read before it read the text, so it never takes new settings for those that it knows; at worst it
reads the same settings twice.

**Results**

* `FileChange`, `FileEvent`, `Watched.run`: what happens to a watched file.
* `applyAll_cases`: a file that was written has another time.
* `LookRun`, `lookRun_look`: what a look can come to.
* `Watched.Known`, `known_run`: what is reported last, when the file has the time that was seen.
* `Watched.Unseen`, `reported_before_unchanged`: looks after one that failed.
* `Watched.Seen`, `settings?_run_of_seen`: looks while nobody writes.
* `watch_loses_nothing`: all looks at a file in any run.
-/

namespace Penumbra

section Events

/-- What others do to a file. -/
inductive FileChange where
  | write (text : String) (modified : Int)
  | remove
deriving DecidableEq, Repr, Inhabited

namespace FileChange

def apply : Option StoredText → FileChange → Option StoredText
  | _, write text modified => some ⟨text, modified⟩
  | _, remove => none

/-- The file after some changes. -/
def applyAll (changes : List FileChange) (file : Option StoredText) : Option StoredText :=
  changes.foldl apply file

/-- The time that a change gives to the file. -/
def time? : FileChange → Option Int
  | write _ modified => some modified
  | remove => none

/-- The times of all writes among some changes. -/
def times (changes : List FileChange) : List Int := changes.filterMap time?

end FileChange

/-- A watched file changes, or it is looked at.  There may be changes between the two steps of a
look; a look that finds the time unchanged has one step only, and these changes come after it. -/
inductive FileEvent where
  | change (c : FileChange)
  | look (between : List FileChange)
deriving DecidableEq, Repr, Inhabited

/-- The times of all writes of an event. -/
def FileEvent.times : FileEvent → List Int
  | change c => FileChange.times [c]
  | look between => FileChange.times between

/-- What a look reports: settings, nothing new, or why it failed. -/
abbrev LookAnswer : Type := Except LightingError (Option (Config Float32))

/-- The settings that a look reports, if it reports some. -/
def LookAnswer.settings? : LookAnswer → Option (Config Float32)
  | .ok found => found
  | .error _ => none

/-- Whether a look found nothing new. -/
instance (answer : LookAnswer) : Decidable (answer = .ok none) :=
  match answer with
  | .ok none => isTrue rfl
  | .ok (some _) => isFalse (by simp)
  | .error _ => isFalse (by simp)

/-- The settings that were reported last. -/
def lastReported (answers : List LookAnswer) : Option (Config Float32) :=
  (answers.filterMap LookAnswer.settings?).getLast?

/-- A file and its watch. -/
structure Watched where
  file : Option StoredText
  watch : ConfigWatch
deriving DecidableEq, Repr, Inhabited

namespace Watched

/-- A file that its watch has not looked at yet. -/
def new (file : Option StoredText) : Watched := ⟨file, ConfigWatch.new⟩

/-- The file after some changes, of which the watch knows nothing. -/
def changed (w : Watched) (changes : List FileChange) : Watched :=
  { w with file := FileChange.applyAll changes w.file }

/-- A look, with changes of the file between its two steps. -/
def look (w : Watched) (between : List FileChange) : LookAnswer × Watched :=
  match ConfigWatch.modified w.file with
  | .ok time =>
    let (answer, watch) := w.watch.reload time (w.changed between).file
    (answer, { w.changed between with watch })
  | .error e => (.error e, w.changed between)

/-- The answers of all looks among some events, and the file and its watch after them. -/
def run : List FileEvent → Watched → List LookAnswer × Watched
  | [], w => ([], w)
  | .change c :: rest, w => run rest (w.changed [c])
  | .look between :: rest, w =>
    let (answers, last) := run rest (w.look between).2
    ((w.look between).1 :: answers, last)

end Watched

end Events

section Changes

open FileChange

/-- After some changes there is no file, or it is the one from before, or it has the time of one of
the writes. -/
theorem applyAll_cases (changes : List FileChange) (file : Option StoredText) :
    applyAll changes file = none ∨ applyAll changes file = file ∨
      ∃ stored, applyAll changes file = some stored ∧ stored.modified ∈ times changes := by
  induction changes generalizing file with
  | nil =>
      exact Or.inr (Or.inl rfl)
  | cons c rest ih =>
      have hrest : ∀ time ∈ times rest, time ∈ times (c :: rest) := by
        intro time htime
        cases c with
        | write text modified =>
            exact List.mem_cons_of_mem _ htime
        | remove =>
            exact htime
      rcases ih (apply file c) with hnone | hsame | ⟨stored, hstored, htime⟩
      · exact Or.inl hnone
      · cases c with
        | write text modified =>
            exact Or.inr (Or.inr ⟨⟨text, modified⟩, hsame, List.mem_cons_self⟩)
        | remove =>
            exact Or.inl hsame
      · exact Or.inr (Or.inr ⟨stored, hstored, hrest _ htime⟩)

variable {w : Watched} {changes : List FileChange}

/-- A file that has a time from before the changes is the one from before. -/
theorem file_of_changed {used : List Int} (hfresh : ∀ time ∈ used, time ∉ times changes)
    {stored : StoredText} (hstored : (w.changed changes).file = some stored)
    (hused : stored.modified ∈ used) : w.file = some stored := by
  rcases applyAll_cases changes w.file with hnone | hsame | ⟨written, hwritten, htime⟩
  · rw [Watched.changed, hnone] at hstored
    cases hstored
  · rwa [Watched.changed, hsame] at hstored
  · rw [Watched.changed, hwritten] at hstored
    cases hstored
    exact absurd htime (hfresh _ hused)

/-- A file that nobody writes stays as it is, unless it is removed. -/
theorem file_of_unwritten (hnone : times changes = []) {stored : StoredText}
    (hstored : (w.changed changes).file = some stored) : w.file = some stored := by
  have hfresh : ∀ time ∈ [stored.modified], time ∉ times changes := by
    simp [hnone]
  exact file_of_changed hfresh hstored List.mem_cons_self

end Changes

section Looks

/-- What a look can come to.  There is no file; or its time was seen before; or the text cannot be
read, and the watch stays as it was; or settings are reported, and the time that was read before the
text is remembered. -/
inductive LookRun (w : Watched) (between : List FileChange) : LookAnswer × Watched → Prop where
  | missing (hfile : w.file = none) :
      LookRun w between (.error .configUnreadable, w.changed between)
  | unchanged {stored} (hfile : w.file = some stored)
      (hseen : w.watch.seen = some stored.modified) :
      LookRun w between (.ok none, w.changed between)
  | failed {stored e} (hfile : w.file = some stored)
      (hseen : w.watch.seen ≠ some stored.modified)
      (hload : Config.load (w.changed between).file = .error e) :
      LookRun w between (.error e, w.changed between)
  | loaded {stored config} (hfile : w.file = some stored)
      (hseen : w.watch.seen ≠ some stored.modified)
      (hload : Config.load (w.changed between).file = .ok config) :
      LookRun w between
        (.ok (some config), { w.changed between with watch := ⟨some stored.modified⟩ })

theorem lookRun_look (w : Watched) (between : List FileChange) :
    LookRun w between (w.look between) := by
  cases hfile : w.file with
  | none =>
      have hlook : w.look between = (.error .configUnreadable, w.changed between) := by
        simp only [Watched.look, hfile, ConfigWatch.modified]
      rw [hlook]
      exact .missing hfile
  | some stored =>
      by_cases hseen : w.watch.seen = some stored.modified
      · have hlook : w.look between = (.ok none, w.changed between) := by
          simp only [Watched.look, hfile, ConfigWatch.modified, ConfigWatch.reload, if_pos hseen]
          rfl
        rw [hlook]
        exact .unchanged hfile hseen
      · cases hload : Config.load (w.changed between).file with
        | error e =>
            have hlook : w.look between = (.error e, w.changed between) := by
              simp only [Watched.look, hfile, ConfigWatch.modified, ConfigWatch.reload,
                if_neg hseen, hload]
              rfl
            rw [hlook]
            exact .failed hfile hseen hload
        | ok config =>
            have hlook : w.look between = (.ok (some config),
                { w.changed between with watch := ⟨some stored.modified⟩ }) := by
              simp only [Watched.look, hfile, ConfigWatch.modified, ConfigWatch.reload,
                if_neg hseen, hload]
            rw [hlook]
            exact .loaded hfile hseen hload

/-- A look at a file that stays as it is. -/
theorem look_undisturbed (w : Watched) :
    w.look [] = ((w.watch.poll w.file).1, { w with watch := (w.watch.poll w.file).2 }) := by
  unfold Watched.look ConfigWatch.poll
  cases ConfigWatch.modified w.file <;> rfl

end Looks

section Known

namespace Watched

/-- Times that were seen are among those of writes, and while the file has the time that was seen,
its settings are those that were reported last. -/
structure Known (w : Watched) (used : List Int) (reported : Option (Config Float32)) : Prop where
  file_used : ∀ {stored}, w.file = some stored → stored.modified ∈ used
  seen_used : ∀ {time}, w.watch.seen = some time → time ∈ used
  settings : ∀ {stored}, w.file = some stored → w.watch.seen = some stored.modified →
    ∃ config, Config.ofText stored.text = .ok config ∧ reported = some config

/-- The file has a time that was not seen, if there is a file. -/
def Unseen (w : Watched) : Prop :=
  ∀ {stored}, w.file = some stored → w.watch.seen ≠ some stored.modified

/-- The file has the time that was seen, if there is a file. -/
def Seen (w : Watched) : Prop :=
  ∀ {stored}, w.file = some stored → w.watch.seen = some stored.modified

end Watched

open FileChange

variable {w : Watched} {used : List Int} {reported : Option (Config Float32)}
  {changes between : List FileChange}

theorem known_new (file : Option StoredText) :
    (Watched.new file).Known (file.toList.map (·.modified)) none := by
  constructor
  · rintro stored hstored
    rw [show file = some stored from hstored]
    exact List.mem_cons_self
  · intro time htime
    cases htime
  · intro stored _ hseen
    cases hseen

theorem known_changed (h : w.Known used reported)
    (hfresh : ∀ time ∈ used, time ∉ times changes) :
    (w.changed changes).Known (used ++ times changes) reported := by
  constructor
  · intro stored hstored
    rcases applyAll_cases changes w.file with hnone | hsame | ⟨written, hwritten, htime⟩
    · rw [Watched.changed, hnone] at hstored
      cases hstored
    · rw [Watched.changed, hsame] at hstored
      exact List.mem_append_left _ (h.file_used hstored)
    · rw [Watched.changed, hwritten] at hstored
      cases hstored
      exact List.mem_append_right _ htime
  · intro time htime
    exact List.mem_append_left _ (h.seen_used htime)
  · intro stored hstored hseen
    -- A time that was seen is no new one, so the file is still the one that was read.
    exact h.settings (file_of_changed hfresh hstored (h.seen_used hseen)) hseen

theorem known_look (h : w.Known used reported)
    (hfresh : ∀ time ∈ used, time ∉ times between) :
    (w.look between).2.Known (used ++ times between)
      ((LookAnswer.settings? (w.look between).1).or reported) := by
  have hchanged := known_changed h hfresh
  have hcases := lookRun_look w between
  generalize w.look between = outcome at hcases ⊢
  cases hcases with
  | missing _ =>
      exact hchanged
  | unchanged _ _ =>
      exact hchanged
  | failed _ _ _ =>
      exact hchanged
  | @loaded stored config hfile _ hload =>
      constructor
      · exact hchanged.file_used
      · intro time htime
        cases htime
        exact List.mem_append_left _ (h.file_used hfile)
      · intro read hread _
        rw [show (w.changed between).file = some read from hread] at hload
        exact ⟨config, hload, rfl⟩

theorem lastReported_concat (answers : List LookAnswer) (answer : LookAnswer) :
    lastReported (answers ++ [answer]) = answer.settings?.or (lastReported answers) := by
  rw [lastReported, List.filterMap_append]
  cases hsettings : answer.settings? with
  | none =>
      simp [hsettings, lastReported]
  | some config =>
      simp [hsettings]

/-- Whatever happens to a file, the settings with the time that was seen were reported last. -/
theorem known_run (events : List FileEvent) {earlier : List LookAnswer}
    (h : w.Known used (lastReported earlier))
    (hfresh : (used ++ events.flatMap FileEvent.times).Nodup) :
    (Watched.run events w).2.Known (used ++ events.flatMap FileEvent.times)
      (lastReported (earlier ++ (Watched.run events w).1)) := by
  induction events generalizing w used earlier with
  | nil =>
      simpa [Watched.run] using h
  | cons event rest ih =>
      rw [List.flatMap_cons, ← List.append_assoc] at hfresh ⊢
      have hnew : ∀ time ∈ used, time ∉ event.times :=
        List.disjoint_of_nodup_append (List.Nodup.of_append_left hfresh)
      cases event with
      | change c =>
          exact ih (known_changed h hnew) hfresh
      | look between =>
          have hlook := known_look h hnew
          rw [← lastReported_concat] at hlook
          have hrest := ih hlook hfresh
          rwa [List.append_assoc earlier, List.singleton_append] at hrest

end Known

section Unseen

open FileChange

variable {w : Watched} {used : List Int} {reported : Option (Config Float32)}
  {changes between : List FileChange}

theorem unseen_changed (h : w.Unseen) (hknown : w.Known used reported)
    (hfresh : ∀ time ∈ used, time ∉ times changes) : (w.changed changes).Unseen := by
  intro stored hstored hseen
  exact h (file_of_changed hfresh hstored (hknown.seen_used hseen)) hseen

/-- A look that fails leaves the watch as it was, and the time that it remembers is not that of the
file. -/
theorem unseen_of_error {e : LightingError} (h : (w.look between).1 = .error e) :
    w.Unseen ∧ (w.look between).2 = w.changed between := by
  have hcases := lookRun_look w between
  generalize w.look between = outcome at hcases h ⊢
  cases hcases with
  | missing hfile =>
      refine ⟨?_, rfl⟩
      intro stored hstored
      rw [hfile] at hstored
      cases hstored
  | unchanged _ _ =>
      cases h
  | @failed stored _ hfile hseen _ =>
      refine ⟨?_, rfl⟩
      intro stored' hstored
      rw [hfile] at hstored
      cases hstored
      exact hseen
  | loaded _ _ _ =>
      cases h

theorem not_unchanged_of_unseen (h : w.Unseen) : (w.look between).1 ≠ .ok none := by
  have hcases := lookRun_look w between
  generalize w.look between = outcome at hcases ⊢
  intro hanswer
  cases hcases with
  | missing _ =>
      cases hanswer
  | unchanged hfile hseen =>
      exact h hfile hseen
  | failed _ _ _ =>
      cases hanswer
  | loaded _ _ _ =>
      cases hanswer

/-- After a file got a time that was not seen, a look reports settings before one finds nothing
new. -/
theorem reported_before_unchanged (events : List FileEvent) (h : w.Unseen)
    (hknown : w.Known used reported) (hfresh : (used ++ events.flatMap FileEvent.times).Nodup)
    {earlier later : List LookAnswer}
    (hrun : (Watched.run events w).1 = earlier ++ .ok none :: later) :
    ∃ config, .ok (some config) ∈ earlier := by
  induction events generalizing w used reported earlier with
  | nil =>
      simp [Watched.run] at hrun
  | cons event rest ih =>
      rw [List.flatMap_cons, ← List.append_assoc] at hfresh
      have hnew : ∀ time ∈ used, time ∉ event.times :=
        List.disjoint_of_nodup_append (List.Nodup.of_append_left hfresh)
      cases event with
      | change c =>
          exact ih (unseen_changed h hknown hnew) (known_changed hknown hnew) hfresh hrun
      | look between =>
          cases earlier with
          | nil =>
              have hfirst := (List.cons.inj hrun).1
              exact absurd hfirst (not_unchanged_of_unseen h)
          | cons answer earlier =>
              obtain ⟨hanswer, hrest⟩ := List.cons.inj hrun
              cases hlook : (w.look between).1 with
              | ok found =>
                  cases found with
                  | none =>
                      exact absurd hlook (not_unchanged_of_unseen h)
                  | some config =>
                      rw [hlook] at hanswer
                      exact ⟨config, by rw [← hanswer]; exact List.mem_cons_self⟩
              | error e =>
                  have hafter : (w.look between).2.Unseen := by
                    rw [(unseen_of_error hlook).2]
                    exact unseen_changed h hknown hnew
                  obtain ⟨config, hconfig⟩ := ih hafter (known_look hknown hnew) hfresh hrest
                  exact ⟨config, List.mem_cons_of_mem _ hconfig⟩

end Unseen

section Seen

open FileChange

variable {w : Watched} {changes between : List FileChange}

theorem seen_changed (h : w.Seen) (hunwritten : times changes = []) : (w.changed changes).Seen :=
  fun hstored => h (file_of_unwritten hunwritten hstored)

/-- A look that reports settings has seen the time of the file, unless somebody wrote it. -/
theorem seen_of_loaded {config : Config Float32} (h : (w.look between).1 = .ok (some config))
    (hunwritten : times between = []) : (w.look between).2.Seen := by
  have hcases := lookRun_look w between
  generalize w.look between = outcome at hcases h ⊢
  cases hcases with
  | missing _ =>
      cases h
  | unchanged _ _ =>
      cases h
  | failed _ _ _ =>
      cases h
  | loaded hfile _ _ =>
      intro stored hstored
      have hsame := file_of_unwritten hunwritten hstored
      rw [hfile] at hsame
      cases hsame
      rfl

theorem look_of_seen (h : w.Seen) (between : List FileChange) :
    LookAnswer.settings? (w.look between).1 = none ∧ (w.look between).2 = w.changed between := by
  have hcases := lookRun_look w between
  generalize w.look between = outcome at hcases ⊢
  cases hcases with
  | missing _ =>
      exact ⟨rfl, rfl⟩
  | unchanged _ _ =>
      exact ⟨rfl, rfl⟩
  | failed hfile hseen _ =>
      exact absurd (h hfile) hseen
  | loaded hfile hseen _ =>
      exact absurd (h hfile) hseen

/-- While nobody writes a file whose time was seen, no look reports settings. -/
theorem settings?_run_of_seen (events : List FileEvent) (h : w.Seen)
    (hunwritten : events.flatMap FileEvent.times = []) :
    ∀ answer ∈ (Watched.run events w).1, LookAnswer.settings? answer = none := by
  induction events generalizing w with
  | nil =>
      simp [Watched.run]
  | cons event rest ih =>
      rw [List.flatMap_cons, List.append_eq_nil_iff] at hunwritten
      obtain ⟨hevent, hrest⟩ := hunwritten
      cases event with
      | change c =>
          exact ih (seen_changed h hevent) hrest
      | look between =>
          obtain ⟨hnone, hsame⟩ := look_of_seen h between
          have hafter : (w.look between).2.Seen := by
            rw [hsame]
            exact seen_changed h hevent
          exact List.forall_mem_cons.mpr ⟨hnone, ih hafter hrest⟩

end Seen

section Run

theorem run_append (events more : List FileEvent) (w : Watched) :
    Watched.run (events ++ more) w =
      ((Watched.run events w).1 ++ (Watched.run more (Watched.run events w).2).1,
        (Watched.run more (Watched.run events w).2).2) := by
  induction events generalizing w with
  | nil =>
      rfl
  | cons event rest ih =>
      cases event with
      | change c =>
          exact ih _
      | look between =>
          rw [List.cons_append, Watched.run, ih]
          rfl

/-- The second step of a look reads the file that is there after it. -/
theorem file_look (w : Watched) (between : List FileChange) :
    (w.look between).2.file = (w.changed between).file := by
  have hcases := lookRun_look w between
  generalize w.look between = outcome at hcases ⊢
  cases hcases <;> rfl

theorem look_fails_iff (w : Watched) (between : List FileChange) :
    (∃ e, (w.look between).1 = .error e) ↔
      w.Unseen ∧ (w.file = none ∨ ∃ e, Config.load (w.look between).2.file = .error e) := by
  rw [file_look]
  have hcases := lookRun_look w between
  constructor
  · rintro ⟨e, he⟩
    refine ⟨(unseen_of_error he).1, ?_⟩
    generalize w.look between = outcome at hcases he
    cases hcases with
    | missing hfile =>
        exact Or.inl hfile
    | unchanged _ _ =>
        cases he
    | failed _ _ hload =>
        exact Or.inr ⟨_, hload⟩
    | loaded _ _ _ =>
        cases he
  · rintro ⟨hunseen, hfails⟩
    generalize w.look between = outcome at hcases ⊢
    cases hcases with
    | missing _ =>
        exact ⟨_, rfl⟩
    | unchanged hfile hseen =>
        exact absurd hseen (hunseen hfile)
    | failed _ _ _ =>
        exact ⟨_, rfl⟩
    | loaded hfile _ hload =>
        rcases hfails with hnone | ⟨e, he⟩
        · rw [hfile] at hnone
          cases hnone
        · rw [he] at hload
          cases hload

theorem load_of_loaded {w : Watched} {between : List FileChange} {config : Config Float32}
    (h : (w.look between).1 = .ok (some config)) :
    Config.load (w.look between).2.file = .ok config := by
  rw [file_look]
  have hcases := lookRun_look w between
  generalize w.look between = outcome at hcases h
  cases hcases with
  | missing _ =>
      cases h
  | unchanged _ _ =>
      cases h
  | failed _ _ _ =>
      cases h
  | loaded _ _ hload =>
      cases h
      exact hload

/--
A look at a file in any run in which no two writes have the same time.  When it finds nothing new,
the settings that were reported last are those of the file that it looked at.  It fails when the time
of the file was not seen and there is no file or its text cannot be read; then the watch remembers
what it did before, and until a later look reports settings, all later looks fail.  When it reports
settings, and nobody writes the file from its first step on, no later look reports any.
-/
theorem watch_loses_nothing (file : Option StoredText) (before later : List FileEvent)
    (between : List FileChange)
    (hfresh : (file.toList.map (·.modified) ++
      (before ++ .look between :: later).flatMap FileEvent.times).Nodup) :
    let answers := (Watched.run before (Watched.new file)).1
    let w := (Watched.run before (Watched.new file)).2
    let answer := (w.look between).1
    let next := (w.look between).2
    let laterAnswers := (Watched.run later next).1
    (Watched.run (before ++ .look between :: later) (Watched.new file)).1 =
        answers ++ answer :: laterAnswers ∧
      (answer = .ok none → ∃ stored config, w.file = some stored ∧
        Config.ofText stored.text = .ok config ∧ lastReported answers = some config) ∧
      ((∃ e, answer = .error e) ↔
        w.Unseen ∧ (w.file = none ∨ ∃ e, Config.load next.file = .error e)) ∧
      (∀ e, answer = .error e → next.watch = w.watch ∧
        ∀ earlier rest, laterAnswers = earlier ++ .ok none :: rest →
          ∃ config, .ok (some config) ∈ earlier) ∧
      ∀ config, answer = .ok (some config) → Config.load next.file = .ok config ∧
        (FileChange.times between = [] → later.flatMap FileEvent.times = [] →
          ∀ other ∈ laterAnswers, LookAnswer.settings? other = none) := by
  intro answers w answer next laterAnswers
  rw [List.flatMap_append, ← List.append_assoc, List.flatMap_cons] at hfresh
  have hstart : (Watched.new file).Known (file.toList.map (·.modified)) (lastReported []) :=
    known_new file
  have hknown := known_run before hstart (List.Nodup.of_append_left hfresh)
  rw [List.nil_append] at hknown
  have hnew : ∀ time ∈ file.toList.map (·.modified) ++ before.flatMap FileEvent.times,
      time ∉ FileChange.times between := by
    rw [← List.append_assoc] at hfresh
    exact List.disjoint_of_nodup_append (List.Nodup.of_append_left hfresh)
  rw [← List.append_assoc] at hfresh
  refine ⟨?_, ?_, ?_, ?_, ?_⟩
  · rw [run_append]
    rfl
  · intro hanswer
    have hcases := lookRun_look w between
    generalize houtcome : w.look between = outcome at hcases
    have hfirst : outcome.1 = .ok none := by
      rw [← houtcome]
      exact hanswer
    cases hcases with
    | missing _ =>
        cases hfirst
    | @unchanged stored hfile hseen =>
        obtain ⟨config, hconfig, hreported⟩ := hknown.settings hfile hseen
        exact ⟨stored, config, hfile, hconfig, hreported⟩
    | failed _ _ _ =>
        cases hfirst
    | loaded _ _ _ =>
        cases hfirst
  · exact look_fails_iff w between
  · intro e he
    obtain ⟨hunseen, hsame⟩ := unseen_of_error he
    have hnext : next = w.changed between := hsame
    refine ⟨by rw [hnext]; rfl, ?_⟩
    intro earlier rest hrun
    have hafter : next.Unseen := by
      rw [hnext]
      exact unseen_changed hunseen hknown hnew
    exact reported_before_unchanged later hafter (known_look hknown hnew) hfresh hrun
  · intro config hconfig
    refine ⟨load_of_loaded hconfig, ?_⟩
    intro hunwritten hlater
    exact settings?_run_of_seen later (seen_of_loaded hconfig hunwritten) hlater

/-- A file that is written again while it is looked at for the first time. -/
def restless : List FileEvent :=
  [.change (.write "\x7b\x7d" 1), .look [.write "\x7b\"enabled\": false\x7d" 2], .look []]

/-- The file is written again with a text that cannot be read. -/
def spoilt : Watched := (Watched.run (restless ++ [.change (.write "?" 3)]) (Watched.new none)).2

/-- The text that came between the steps of the first look is reported before nothing new is, and a
look that fails leaves what the watch remembers. -/
theorem watch_loses_nothing_restless :
    (∃ stored config, (Watched.run restless (Watched.new none)).2.file = some stored ∧
        Config.ofText stored.text = .ok config ∧
        lastReported (Watched.run restless (Watched.new none)).1 = some config) ∧
      (spoilt.look []).2.watch = spoilt.watch := by
  have hsecond : ((Watched.run restless (Watched.new none)).2.look []).1 = .ok none := by
    decide +kernel
  have hthird : (spoilt.look []).1.isOk = false := by
    decide +kernel
  have hfirst := watch_loses_nothing none restless [] [] (by decide)
  have hlast := watch_loses_nothing none (restless ++ [.change (.write "?" 3)]) [] [] (by decide)
  have hspoilt : (Watched.run (restless ++ [.change (.write "?" 3)]) (Watched.new none)).2 = spoilt :=
    rfl
  rw [hspoilt] at hlast
  constructor
  · exact hfirst.2.1 hsecond
  · cases h : (spoilt.look []).1 with
    | error e =>
        exact (hlast.2.2.2.1 e h).1
    | ok found =>
        rw [h] at hthird
        cases hthird

end Run

end Penumbra
