import Penumbra.Proofs.Frame.Outcome
import Penumbra.Proofs.Frame.Recovery

/-!
# Batches of lights

Lights without shadows are collected in a batch, which is drawn when there is no more room in it and
at the end.  A refused draw leaves its quads in the batch.  Whatever is refused, no quad is lost,
drawn twice or moved before another one: what has been drawn and what is left in the batch are the
quads that the batch had and the first ones of the lights.

**Results**

* `LightBatch.Bounded`: a batch never has more quads than room, and all corners can be numbered.
* `toNat_quadIndices`: the numbers of the corners.
* `LightBatch.Accounts`: what has been drawn and what is left are what there was.
* `accountsFor_collected`, `accountsFor_drawn`: this holds before each command of the passes.
* `BatchUse`, `useAll`, `bounded_useAll`: all batches that there may be.
* `composeLights_accounted`: no quad is lost, drawn twice or moved, at any moment.
-/

namespace Penumbra

variable {K : Type}

section Numbers

/-- The corners of the two triangles of each of a number of quads. -/
def cornerNumbers (count : Nat) : List Nat :=
  (List.range count).flatMap fun i => [4 * i, 4 * i + 1, 4 * i + 2, 4 * i, 4 * i + 2, 4 * i + 3]

/-- Each quad that is added has numbers after those of the quads before it. -/
theorem quadIndices_succ (count : Nat) :
    quadIndices (count + 1) = quadIndices count ++
      [0, 1, 2, 0, 2, 3].map (UInt16.ofNat (count * maskVerticesPerOccluder) + ·) := by
  simp [quadIndices, List.range_succ]

/-- The numbers of the corners fit into 16 bits. -/
theorem toNat_quadIndices {count : Nat} (h : count ≤ LightBatch.mostQuads) :
    (quadIndices count).map UInt16.toNat = cornerNumbers count := by
  induction count with
  | zero =>
      rfl
  | succ count ih =>
      rw [LightBatch.mostQuads] at h
      have hbase : (UInt16.ofNat (count * maskVerticesPerOccluder)).toNat = 4 * count := by
        rw [UInt16.toNat_ofNat', maskVerticesPerOccluder]
        omega
      rw [quadIndices_succ, List.map_append, ih (by rw [LightBatch.mostQuads]; omega),
        cornerNumbers, cornerNumbers, List.range_succ, List.flatMap_append]
      generalize UInt16.ofNat (count * maskVerticesPerOccluder) = base at hbase
      simp [UInt16.toNat_add, hbase]
      omega

example : quadIndices 2 = [0, 1, 2, 0, 2, 3, 4, 5, 6, 4, 6, 7] := by decide

end Numbers

namespace LightBatch

section Accounts

/-- There is room for a quad at least, and for no more than can be numbered, and it is kept to. -/
structure Bounded (b : LightBatch K) : Prop where
  one_le : 1 ≤ b.capacity
  le_most : b.capacity ≤ mostQuads
  length_le : b.quads.length ≤ b.capacity

/-- Of a batch and quads of one's own, what has been drawn and what is left. -/
structure Accounts (b : LightBatch K) (own : List (LightQuad K)) (drawn : List (LightBatch K))
    (left : LightBatch K) : Prop where
  quads : ∃ n, drawn.flatMap (·.quads) ++ left.quads = b.quads ++ own.take n
  capacity : left.capacity = b.capacity
  left_le : left.quads.length ≤ b.capacity
  drawn_le : ∀ d ∈ drawn, 1 ≤ d.quads.length ∧ d.quads.length ≤ b.capacity
  full : ∀ d ∈ drawn.dropLast, d.quads.length = b.capacity

variable {b left : LightBatch K} {own qs : List (LightQuad K)} {drawn : List (LightBatch K)}

theorem bounded_new (quads : Nat) : (new quads : LightBatch K).Bounded := by
  constructor
  · change 1 ≤ min (max quads 1) 16384
    omega
  · exact Nat.min_le_right _ _
  · exact Nat.zero_le _

theorem Accounts.bounded (h : b.Accounts own drawn left) (hb : b.Bounded) : left.Bounded := by
  obtain ⟨hone, hmost, -⟩ := hb
  have hleft := h.left_le
  rw [← h.capacity] at hone hmost hleft
  exact ⟨hone, hmost, hleft⟩

theorem Bounded.accounts (hb : b.Bounded) (own : List (LightQuad K)) : b.Accounts own [] b where
  quads := ⟨0, by simp⟩
  capacity := rfl
  left_le := hb.length_le
  drawn_le := by simp
  full := by simp

/-- What accounts for the first quads of one's own accounts for all of them. -/
theorem Accounts.of_begins (h : b.Accounts qs drawn left) (hqs : qs <+: own) :
    b.Accounts own drawn left := by
  obtain ⟨n, hn⟩ := h.quads
  obtain ⟨more, rfl⟩ := hqs
  refine ⟨⟨min n qs.length, ?_⟩, h.capacity, h.left_le, h.drawn_le, h.full⟩
  rw [hn, List.take_append_of_le_length (Nat.min_le_right _ _), ← List.take_eq_take_min]

/-- Batches that are drawn to make room are full, and the last one has no more quads than room. -/
theorem filled_length (hb : b.Bounded) (qs : List (LightQuad K)) :
    (∀ d ∈ (b.filled qs).1, d.quads.length = b.capacity) ∧
      (b.filled qs).2.quads.length ≤ b.capacity := by
  induction qs generalizing b with
  | nil =>
      exact ⟨fun d hd => (List.not_mem_nil hd).elim, hb.length_le⟩
  | cons q rest ih =>
      obtain ⟨hone, hmost, hlength⟩ := hb
      unfold filled
      split
      · next hfull =>
          have hfull : b.capacity ≤ b.quads.length := by simpa [isFull] using hfull
          have hnext : (b.clear.add q).Bounded := ⟨hone, hmost, by simpa [clear, add] using hone⟩
          obtain ⟨hrest, hlast⟩ := ih hnext
          refine ⟨?_, hlast⟩
          intro d hd
          rcases List.mem_cons.mp hd with rfl | hd
          · exact Nat.le_antisymm hlength hfull
          · exact hrest d hd
      · next hroom =>
          have hroom : b.quads.length < b.capacity := by simpa [isFull] using hroom
          have hnext : (b.add q).quads.length = b.quads.length + 1 := by simp [add]
          exact ih ⟨hone, hmost, hnext ▸ hroom⟩

/-- Before each batch that is drawn, and at the end, the quads are those of the batch and the first
ones of those that are added. -/
theorem filled_split {done rest : List (LightBatch K)}
    (h : (b.filled qs).1 ++ [(b.filled qs).2] = done ++ left :: rest) :
    ∃ n, done.flatMap (·.quads) ++ left.quads = b.quads ++ qs.take n := by
  induction qs generalizing b done with
  | nil =>
      obtain ⟨rfl, rfl, -⟩ : done = [] ∧ b = left ∧ rest = [] := by
        cases done with
        | nil =>
            simpa [filled, eq_comm] using h
        | cons d done =>
            simp [filled] at h
      exact ⟨0, by simp⟩
  | cons q qs ih =>
      unfold filled at h
      split at h
      · cases done with
        | nil =>
            obtain rfl : b = left := (List.cons.inj h).1
            exact ⟨0, by simp⟩
        | cons d done =>
            obtain ⟨rfl, htail⟩ := List.cons.inj h
            obtain ⟨n, hn⟩ := ih htail
            refine ⟨n + 1, ?_⟩
            rw [List.flatMap_cons, List.append_assoc, hn]
            rfl
      · obtain ⟨n, hn⟩ := ih h
        refine ⟨n + 1, ?_⟩
        rw [hn]
        simp [add]

/-- When quads are collected, the account is right before each batch that is drawn and at the end. -/
theorem accounts_filled (hb : b.Bounded) {done rest : List (LightBatch K)}
    (h : (b.filled qs).1 ++ [(b.filled qs).2] = done ++ left :: rest) :
    b.Accounts qs done left := by
  obtain ⟨hfull, hlast⟩ := filled_length hb qs
  obtain ⟨hcapacities, hcapacity⟩ := b.filled_capacity qs
  have hdone : ∀ d ∈ done, d.quads.length = b.capacity := by
    intro d hd
    have hfirst := congrArg List.dropLast h
    rw [List.dropLast_concat, List.dropLast_append_of_ne_nil (List.cons_ne_nil _ _)] at hfirst
    exact hfull d (by rw [hfirst]; exact List.mem_append_left _ hd)
  have hleft : left.capacity = b.capacity ∧ left.quads.length ≤ b.capacity := by
    have hmem : left ∈ (b.filled qs).1 ++ [(b.filled qs).2] := by
      rw [h]
      simp
    rcases List.mem_append.mp hmem with hmem | hmem
    · exact ⟨hcapacities left hmem, Nat.le_of_eq (hfull left hmem)⟩
    · rw [List.mem_singleton.mp hmem]
      exact ⟨hcapacity, hlast⟩
  constructor
  · exact filled_split h
  · exact hleft.1
  · exact hleft.2
  · intro d hd
    have hlength := hdone d hd
    have hone := hb.one_le
    omega
  · exact fun d hd => hdone d ((List.dropLast_sublist done).subset hd)

/-- When quads are collected, the account is right before each batch that is drawn. -/
theorem accounts_of_filled_split (hb : b.Bounded) {done rest : List (LightBatch K)}
    (h : (b.filled qs).1 = done ++ left :: rest) : b.Accounts qs done left := by
  have hmore : (b.filled qs).1 ++ [(b.filled qs).2] =
      done ++ left :: (rest ++ [(b.filled qs).2]) := by
    rw [h, List.append_assoc]
    rfl
  exact accounts_filled hb hmore

/-- When the last batch is drawn as well, nothing is left, and the account is right. -/
theorem accounts_drawn (hb : b.Bounded) (qs : List (LightQuad K)) :
    b.Accounts qs (b.drawn qs) b.clear := by
  obtain ⟨hfull, hlast⟩ := filled_length hb qs
  have hone := hb.one_le
  constructor
  · exact ⟨qs.length, by rw [drawn_quads, List.take_length]; simp [clear]⟩
  · rfl
  · exact Nat.zero_le _
  · intro d hd
    rcases List.mem_append.mp hd with hd | hd
    · have hlength := hfull d hd
      omega
    · split at hd
      · cases hd
      · next hsome =>
          obtain rfl := List.mem_singleton.mp hd
          have hpositive := List.length_pos_iff.mpr (by simpa [isEmpty] using hsome)
          exact ⟨hpositive, hlast⟩
  · intro d hd
    refine hfull d ?_
    unfold drawn at hd
    simp only at hd
    split at hd
    · rw [List.append_nil] at hd
      exact (List.dropLast_sublist _).subset hd
    · rwa [List.dropLast_concat] at hd

example (q : LightQuad K) :
    ((new 2).drawn [q, q, q, q, q]).map (·.quads.length) = [2, 2, 1] := rfl

/-- Each batch that is drawn on the way to an empty one finds the account right. -/
theorem accounts_of_drawn_split (hb : b.Bounded) {done rest : List (LightBatch K)}
    (h : b.drawn qs = done ++ left :: rest) : b.Accounts qs done left := by
  unfold drawn at h
  simp only at h
  split at h
  · rw [List.append_nil] at h
    exact accounts_of_filled_split hb h
  · exact accounts_filled hb h

end Accounts

end LightBatch

section Traces

/-- The batch that is there when the rest of a trace is to come. -/
def batchBefore (rest : Trace K) (last : LightBatch K) : LightBatch K :=
  match rest with
  | [] => last
  | (_, left) :: _ => left

/-- What commands have drawn and the batch that they leave account for a batch and quads of one's
own.  What is drawn is the four corners of the quads in their order, with their numbers. -/
def LightBatch.AccountedBy (b : LightBatch K) (own : List (LightQuad K)) (cs : List (Command K))
    (left : LightBatch K) : Prop :=
  ∃ drawn : List (LightBatch K),
    batches cs = drawn.map (fun d =>
      (d.quads.flatMap fun q => [q.first, q.second, q.third, q.fourth], d.indices)) ∧
    b.Accounts own drawn left ∧ ∀ d ∈ drawn, d.indices.map UInt16.toNat = cornerNumbers d.quads.length

/-- The account is right before each command of a trace and at its end. -/
def AccountsFor (b : LightBatch K) (own : List (LightQuad K)) (t : Trace K) (last : LightBatch K) :
    Prop :=
  ∀ done rest, t = done ++ rest → b.AccountedBy own (done.map (·.1)) (batchBefore rest last)

variable {b last : LightBatch K} {own : List (LightQuad K)} {t : Trace K} {cs : List (Command K)}

theorem LightBatch.Accounts.accountedBy {drawn : List (LightBatch K)} {left : LightBatch K}
    (h : b.Accounts own drawn left) (hb : b.Bounded) :
    b.AccountedBy own ((drawTrace drawn).map (·.1)) left := by
  refine ⟨drawn, batches_drawTrace drawn, h, ?_⟩
  intro d hd
  exact toNat_quadIndices (Nat.le_trans (h.drawn_le d hd).2 hb.le_most)

theorem LightBatch.AccountedBy.congr {left : LightBatch K} {cs' : List (Command K)}
    (h : b.AccountedBy own cs left) (hcs : batches cs' = batches cs) :
    b.AccountedBy own cs' left := by
  obtain ⟨drawn, hdrawn, haccounts⟩ := h
  exact ⟨drawn, hcs.trans hdrawn, haccounts⟩

theorem batches_of_map_eq_append {more done : Trace K} (hcs : Unbatched cs)
    (h : cs.map (fun c => (c, b)) = done ++ more) : batches (done.map (·.1)) = [] := by
  refine batches_of_unbatched fun c hc => hcs c ?_
  have hcommands := congrArg (List.map (·.1)) h
  rw [map_fst_map, List.map_append] at hcommands
  rw [hcommands]
  exact List.mem_append_left _ hc

theorem batchBefore_append_map {more : Trace K} (hcs : cs.map (fun c => (c, b)) = t ++ more)
    (hmore : more ≠ []) (rest : Trace K) (last : LightBatch K) :
    batchBefore (more ++ rest) last = b := by
  cases more with
  | nil =>
      exact absurd rfl hmore
  | cons x more =>
      have hx : x ∈ cs.map fun c => (c, b) := by
        rw [hcs]
        simp
      obtain ⟨c, -, rfl⟩ := List.mem_map.mp hx
      rfl

/-- Commands that draw no batch may come before. -/
theorem AccountsFor.after_unbatched (h : AccountsFor b own t last) (hb : b.Bounded)
    (hcs : Unbatched cs) : AccountsFor b own (cs.map (fun c => (c, b)) ++ t) last := by
  intro done rest hsplit
  rcases List.append_eq_append_iff.mp hsplit with ⟨later, rfl, hlater⟩ | ⟨more, hdone, rfl⟩
  · refine (h later rest hlater).congr ?_
    rw [List.map_append, map_fst_map, batches_append, batches_of_unbatched hcs, List.nil_append]
  · have hnone := batches_of_map_eq_append hcs hdone
    by_cases hmore : more = []
    · subst hmore
      exact (h [] t rfl).congr hnone
    · rw [batchBefore_append_map hdone hmore]
      exact ⟨[], hnone, hb.accounts own, fun d hd => (List.not_mem_nil hd).elim⟩

/-- Commands that draw no batch may come after. -/
theorem AccountsFor.before_unbatched (h : AccountsFor b own t last) (hcs : Unbatched cs) :
    AccountsFor b own (t ++ cs.map fun c => (c, last)) last := by
  have hlast : ∀ rest more : Trace K, cs.map (fun c => (c, last)) = rest ++ more →
      batchBefore more last = last := by
    intro rest more hsplit
    by_cases hmore : more = []
    · rw [hmore]
      rfl
    · have hbefore := batchBefore_append_map hsplit hmore [] last
      rwa [List.append_nil] at hbefore
  intro done rest hsplit
  rcases List.append_eq_append_iff.mp hsplit with ⟨later, rfl, hlater⟩ | ⟨more, rfl, rfl⟩
  · rw [hlast later rest hlater]
    refine (h t [] (by simp)).congr ?_
    rw [List.map_append, batches_append, batches_of_map_eq_append hcs hlater, List.append_nil]
  · have hbefore := h done more rfl
    cases more with
    | nil =>
        rwa [List.nil_append, hlast [] _ rfl]
    | cons x more =>
        exact hbefore

/-- Batches may be drawn when each of them finds the account right and leaves it right. -/
theorem accountsFor_drawTrace {drawn : List (LightBatch K)} (hb : b.Bounded)
    (hsplit : ∀ done left rest, drawn = done ++ left :: rest → b.Accounts own done left)
    (hlast : b.Accounts own drawn last) : AccountsFor b own (drawTrace drawn) last := by
  intro done rest h
  obtain ⟨done, rest, rfl, rfl, rfl⟩ := List.map_eq_append_iff.mp h
  cases rest with
  | nil =>
      rw [List.append_nil] at hlast
      exact hlast.accountedBy hb
  | cons left rest =>
      exact (hsplit done left rest rfl).accountedBy hb

/-- The account is right while quads are collected. -/
theorem accountsFor_filled (hb : b.Bounded) {qs : List (LightQuad K)} (hqs : qs <+: own) :
    AccountsFor b own (drawTrace (b.filled qs).1) (b.filled qs).2 := by
  refine accountsFor_drawTrace hb ?_ ?_
  · intro done left rest h
    exact (LightBatch.accounts_of_filled_split hb h).of_begins hqs
  · have hend : (b.filled qs).1 ++ [(b.filled qs).2] =
        (b.filled qs).1 ++ (b.filled qs).2 :: [] := rfl
    exact (LightBatch.accounts_filled hb hend).of_begins hqs

/-- The account is right while quads are collected and the last ones are drawn. -/
theorem accountsFor_drawn (hb : b.Bounded) {qs : List (LightQuad K)} (hqs : qs <+: own) :
    AccountsFor b own (drawTrace (b.drawn qs)) b.clear :=
  accountsFor_drawTrace hb
    (fun _ _ _ h => (LightBatch.accounts_of_drawn_split hb h).of_begins hqs)
    ((LightBatch.accounts_drawn hb qs).of_begins hqs)

end Traces

section Passes

theorem script_batches (s : FrameState K) (t : Trace K) (last : LightBatch K) :
    (s.script t last).steps.map (fun x => (x.1, x.2.batch)) = t := by
  induction t generalizing s with
  | nil =>
      rfl
  | cons x rest ih =>
      rw [FrameState.script, List.map_cons, ih]

variable {D D' : Type} [Device D K] [Device D' K] {p : FramePass K Unit} {s : FrameState K}
  {own : List (LightQuad K)} {t : Trace K} {last : LightBatch K}

/-- A pass that keeps its account ends with it, on any device, whether a command is refused or not. -/
theorem accountedBy_run (hp : Draws p s.batch t last) (ht : AccountsFor s.batch own t last)
    (other : D') :
    let run := p.run s (Logged.new other : Logged D' K)
    s.batch.AccountedBy own (accepted run.2.2.log) run.2.1.batch ∧
      (run.1 = .ok () ∧ run.2.1.batch = last ∧ accepted run.2.2.log = t.map (·.1) ∨
        ∃ message, run.1 = .error (.error (.backend message))) := by
  intro run
  have hscript : p s = s.script t last := hp s rfl
  have hsteps : (p s).steps.map (fun x => (x.1, x.2.batch)) = t := by
    rw [hscript, script_batches]
  rcases p.run_accepted s (Logged.new other : Logged D' K) with
    ⟨hanswer, hstate, hlog⟩ | ⟨done, c, left, rest, message, hdone, hanswer, hstate, hlog⟩
  · have haccepted : accepted run.2.2.log = t.map (·.1) := by
      rw [hlog, accepted_new, List.nil_append, Pass.commands, ← hsteps, List.map_map]
      rfl
    have hending : p.ending s = (.ok (), s.after t last) := by
      rw [Pass.ending, hscript, FrameState.script_outcome]
    rw [hending] at hanswer hstate
    have hbatch : run.2.1.batch = last := by
      rw [hstate]
      rfl
    refine ⟨?_, Or.inl ⟨hanswer, hbatch, haccepted⟩⟩
    rw [haccepted, hbatch]
    exact ht t [] (by simp)
  · refine ⟨?_, Or.inr ⟨message, hanswer⟩⟩
    rw [hdone, List.map_append, List.map_cons] at hsteps
    have hbefore := ht _ _ hsteps.symm
    rw [List.map_map] at hbefore
    rw [hlog, accepted_new, List.nil_append, hstate]
    exact hbefore

/-- A pass that keeps its account leaves no more quads than there is room for, on any device. -/
theorem bounded_run (hs : s.batch.Bounded) (hp : Draws p s.batch t last)
    (ht : AccountsFor s.batch own t last) (d : D) : (p.run s d).2.1.batch.Bounded := by
  have hscript : p s = s.script t last := hp s rfl
  have hbounded : ∀ done rest, t = done ++ rest → (batchBefore rest last).Bounded := by
    intro done rest hsplit
    obtain ⟨drawn, -, haccounts, -⟩ := ht done rest hsplit
    exact haccounts.bounded hs
  refine Pass.run_induction (I := fun s : FrameState K => s.batch.Bounded) hs ?_ ?_ d
  · intro x hx
    rw [hscript] at hx
    have hmem := List.mem_map_of_mem (f := fun x => (x.1, x.2.batch)) hx
    rw [script_batches] at hmem
    obtain ⟨done, rest, hsplit⟩ := List.append_of_mem hmem
    exact hbounded done _ hsplit
  · intro _ s' hok
    rw [hscript, FrameState.script_outcome] at hok
    cases hok
    exact hbounded t [] (by simp)

end Passes

section Compose

variable [Scalar K] {s : FrameState K}

/-- The light map up to some of its lights without shadows. -/
def composeUntil (c : Composition K) (lights : List (PointLight K)) (n : Nat) : FramePass K Unit := do
  Pass.issue (.beginLightPass ⟨c.ambient.withAlpha 0.0, c.targetSize⟩)
  drawWith 1 (.drawLightingFov ⟨c.viewport.clipToDiff c.eye c.eye.position, Color.black⟩)
  if 0 < c.occluderCount then
    drawWith 1 (.drawOccluderMask ⟨deviceWord c.occluderCount, c.viewport.eyeToClip c.eye⟩)
  collectLights (LightFrame.new c.viewport c.eye c.targetSize)
    ((lights.filter fun light => !light.castsShadows).take n)

theorem collectLights_append (frame : LightFrame K) (lights more : List (PointLight K)) :
    collectLights frame (lights ++ more) =
      (do collectLights frame lights; collectLights frame more) := by
  induction lights with
  | nil =>
      rfl
  | cons light rest ih =>
      rw [List.cons_append, collectLights, collectLights, ih]
      split <;> simp

/-- What comes after some of the lights without shadows. -/
theorem composeLights_eq_until (c : Composition K) (floatTargets : Bool)
    (lights : List (PointLight K)) (n : Nat) :
    ∃ rest, composeLights c floatTargets lights = (composeUntil c lights n >>= fun _ => rest) := by
  let frame := LightFrame.new c.viewport c.eye c.targetSize
  refine ⟨do
    collectLights frame ((lights.filter fun light => !light.castsShadows).drop n)
    flushBatch
    drawCasters c floatTargets frame (lights.filter fun light => light.castsShadows)
    Pass.issue .endLightPass, ?_⟩
  have hlights := collectLights_append frame
    ((lights.filter fun light => !light.castsShadows).take n)
    ((lights.filter fun light => !light.castsShadows).drop n)
  rw [List.take_append_drop] at hlights
  unfold composeLights composeUntil
  simp only [show LightFrame.new c.viewport c.eye c.targetSize = frame from rfl, hlights]
  split <;> simp

/-- The quads of some of the lights without shadows. -/
def Composition.firstQuads (c : Composition K) (lights : List (PointLight K)) (n : Nat) :
    List (LightQuad K) :=
  (LightFrame.new c.viewport c.eye c.targetSize).quads
    ((lights.filter fun light => !light.castsShadows).take n)

theorem Composition.firstQuads_begins (c : Composition K) (lights : List (PointLight K)) (n : Nat) :
    c.firstQuads lights n <+: c.quads lights :=
  List.IsPrefix.filterMap _ <| List.take_prefix _ _

theorem composeUntil_draws (c : Composition K) (lights : List (PointLight K)) (n : Nat)
    {b : LightBatch K} (hb : 1 ≤ b.capacity) :
    Draws (composeUntil c lights n) b
      ((lightPassCommands c).map (fun command => (command, b)) ++
        drawTrace (b.filled (c.firstQuads lights n)).1)
      (b.filled (c.firstQuads lights n)).2 :=
  lightPass_draws c (collectLights_draws _ _ hb)

/-- The batch that a flush draws, if it is not empty. -/
theorem flushBatch_draws_drawn (b : LightBatch K) :
    Draws flushBatch b (drawTrace (b.drawn [])) b.clear := by
  have hflush := flushBatch_draws b
  have htrace : drawTrace (b.drawn []) = if b.isEmpty then [] else [(b.drawCommand, b)] := by
    unfold LightBatch.drawn LightBatch.filled
    simp only [List.nil_append]
    split <;> rfl
  rwa [htrace]

/-- A flush after some of the lights draws what is left of them. -/
theorem composeUntil_flushBatch_draws (c : Composition K) (lights : List (PointLight K)) (n : Nat)
    {b : LightBatch K} (hb : 1 ≤ b.capacity) :
    Draws (do composeUntil c lights n; flushBatch) b
      ((lightPassCommands c).map (fun command => (command, b)) ++
        drawTrace (b.drawn (c.firstQuads lights n))) b.clear := by
  let last := (b.filled (c.firstQuads lights n)).2
  have hbind := (composeUntil_draws c lights n hb).bind (flushBatch_draws_drawn last)
  have hclear : last.clear = b.clear := by
    rw [LightBatch.clear, (b.filled_capacity _).2, LightBatch.clear]
  have hdrawn : drawTrace (b.filled (c.firstQuads lights n)).1 ++ drawTrace (last.drawn []) =
      drawTrace (b.drawn (c.firstQuads lights n)) := by
    rw [drawTrace, drawTrace, ← List.map_append]
    rfl
  rwa [List.append_assoc, hdrawn, hclear] at hbind

variable {b : LightBatch K}

theorem accountsFor_composeLights (hb : b.Bounded) (c : Composition K) (floatTargets : Bool)
    (lights : List (PointLight K)) :
    AccountsFor b (c.quads lights)
      ((lightPassCommands c).map (fun command => (command, b)) ++
        (drawTrace (b.drawn (c.quads lights)) ++
          (shadowPassCommands c floatTargets lights).map fun command => (command, b.clear)))
      b.clear :=
  ((accountsFor_drawn hb (List.prefix_refl _)).before_unbatched
    (unbatched_shadowPassCommands c floatTargets lights)).after_unbatched hb
      (unbatched_lightPassCommands c)

end Compose

section Uses

/-- What may be done with a batch, besides to make it. -/
inductive BatchUse (K : Type) where
  | resize (quads : Nat)
  | compose (c : Composition K) (floatTargets : Bool) (lights : List (PointLight K))
  | flush

variable [Scalar K] {D D' : Type} [Device D K] [Device D' K]

def BatchUse.pass : BatchUse K → FramePass K Unit
  | .resize quads => Pass.modify fun s => { s with batch := s.batch.resize quads }
  | .compose c floatTargets lights => composeLights c floatTargets lights
  | .flush => flushBatch

/-- Uses a batch in one way after the other, whatever is refused. -/
def useAll : List (BatchUse K) → FrameState K → D → FrameState K × D
  | [], s, d => (s, d)
  | use :: rest, s, d =>
    let (_, s', d') := use.pass.run s d
    useAll rest s' d'

theorem bounded_use (use : BatchUse K) {s : FrameState K} (hs : s.batch.Bounded) (d : D) :
    (use.pass.run s d).2.1.batch.Bounded := by
  cases use with
  | resize quads =>
      exact LightBatch.bounded_new quads
  | compose c floatTargets lights =>
      exact bounded_run hs (composeLights_draws c floatTargets lights hs.one_le)
        (accountsFor_composeLights hs c floatTargets lights) d
  | flush =>
      exact bounded_run hs (flushBatch_draws_drawn s.batch)
        (accountsFor_drawn hs (List.prefix_refl [])) d

/-- Whatever has been done with a batch, it has no more quads than room. -/
theorem bounded_useAll (uses : List (BatchUse K)) {s : FrameState K} (hs : s.batch.Bounded) (d : D) :
    (useAll uses s d).1.batch.Bounded := by
  induction uses generalizing s d with
  | nil =>
      exact hs
  | cons use rest ih =>
      exact ih (bounded_use use hs d) _

/-- Of any batch that there may be, the light map draws all quads once and in order, those first
that were left in it.  Nothing is lost, drawn twice or moved when a command is refused, nor at any
moment before: after some of the lights, and when the batch has been drawn after them. -/
theorem composeLights_accounted (start : FrameState K) (quads : Nat) (uses : List (BatchUse K))
    (device : D) (c : Composition K) (floatTargets : Bool) (lights : List (PointLight K))
    (other : D') :
    let s := (useAll uses { start with batch := .new quads } device).1
    let own := c.quads lights
    let run := (composeLights c floatTargets lights).run s (Logged.new other : Logged D' K)
    s.batch.Bounded ∧
    s.batch.AccountedBy own (accepted run.2.2.log) run.2.1.batch ∧
    (run.1 = .ok () ∧ run.2.1.batch.quads = [] ∧
        drawnVertices (accepted run.2.2.log) =
          ((s.batch.quads ++ own).flatMap fun q => [q.first, q.second, q.third, q.fourth]) ∨
      ∃ message, run.1 = .error (.error (.backend message))) ∧
    ∀ n, (∃ rest, composeLights c floatTargets lights = (composeUntil c lights n >>= fun _ => rest)) ∧
      ∀ moment ∈ [composeUntil c lights n, do composeUntil c lights n; flushBatch],
        let part := moment.run s (Logged.new other : Logged D' K)
        s.batch.AccountedBy own (accepted part.2.2.log) part.2.1.batch := by
  intro s own run
  have hb : s.batch.Bounded := bounded_useAll uses (LightBatch.bounded_new quads) device
  obtain ⟨haccounted, hanswer⟩ := accountedBy_run
    (composeLights_draws c floatTargets lights hb.one_le)
    (accountsFor_composeLights hb c floatTargets lights) other
  refine ⟨hb, haccounted, ?_, ?_⟩
  · refine hanswer.imp_left ?_
    rintro ⟨hok, hlast, haccepted⟩
    refine ⟨hok, by rw [hlast]; rfl, ?_⟩
    rw [haccepted, drawnVertices]
    simp only [List.map_append, map_fst_map, batches_append, batches_drawTrace,
      batches_of_unbatched (unbatched_lightPassCommands c),
      batches_of_unbatched (unbatched_shadowPassCommands c floatTargets lights), List.nil_append,
      List.append_nil]
    exact vertices_drawn s.batch own
  · intro n
    have hquads := c.firstQuads_begins lights n
    refine ⟨composeLights_eq_until c floatTargets lights n, ?_⟩
    have hbegin := unbatched_lightPassCommands c
    intro moment hmoment
    rcases List.mem_pair.mp hmoment with rfl | rfl
    · exact (accountedBy_run (composeUntil_draws c lights n hb.one_le)
        ((accountsFor_filled hb hquads).after_unbatched hb hbegin) other).1
    · exact (accountedBy_run (composeUntil_flushBatch_draws c lights n hb.one_le)
        ((accountsFor_drawn hb hquads).after_unbatched hb hbegin) other).1

end Uses

end Penumbra
