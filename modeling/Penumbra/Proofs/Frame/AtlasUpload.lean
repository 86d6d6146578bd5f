import Mathlib
import Penumbra.Proofs.Frame.Log
import Penumbra.Proofs.Frame.MaskLayout
import Penumbra.Proofs.Frame.Session

/-!
# The upload of the mask atlas

Masks are put into an atlas, and the atlas is uploaded in one command.  It is not uploaded when it
is wider than settings and device allow.  It is as high as its highest mask, which is not checked.

**Results**

* `MaskAtlas.stripHeight_le_iff`: an atlas is as high as its highest mask.
* `MaskAtlas.Fits`, `MaskAtlas.build_of_fits`: when an atlas is built.
* `Renderer.loadMasks_uploads`: what is uploaded, and how large it is.
-/

namespace Penumbra

namespace MaskAtlas

theorem foldl_max_le_iff (heights : List Nat) (start n : Nat) :
    heights.foldl max start ≤ n ↔ start ≤ n ∧ ∀ height ∈ heights, height ≤ n := by
  induction heights generalizing start with
  | nil =>
      simp
  | cons height rest ih =>
      rw [List.foldl_cons, ih, Nat.max_le, List.forall_mem_cons, and_assoc]

theorem stripHeight_le_iff (loaded : List (String × Image)) (n : Nat) :
    stripHeight loaded ≤ n ↔ 1 ≤ n ∧ ∀ m ∈ loaded, m.2.height ≤ n := by
  rw [stripHeight, foldl_max_le_iff, List.forall_mem_map]

/-- An atlas of some masks can be made: columns can be counted, and it is neither too wide for the
device nor too large for any memory. -/
structure Fits (loaded : List (String × Image)) (maxSize : Nat) : Prop where
  counted : stripWidth loaded ≤ maxPixels
  width : stripWidth loaded ≤ maxSize
  room : stripWidth loaded * stripHeight loaded * Pixel.bytes ≤ Memory.mostBytes

variable {K : Type} [Scalar K] {prototypes : List MaskPrototype} {load : String → Option Image}
  {maxSize : Nat}

theorem build_of_fits (h : Fits (loadAll prototypes load) maxSize) :
    build (K := K) prototypes load maxSize = .ok (ofMasks (loadAll prototypes load)) := by
  rw [build_eq prototypes load maxSize rfl rfl h.counted.not_gt, if_neg h.width.not_gt,
    Memory.reserve, if_pos h.room]

theorem build_of_not_fits (h : ¬Fits (loadAll prototypes load) maxSize) :
    ∃ failure, build (K := K) prototypes load maxSize = .error failure := by
  by_cases hcounted : maxPixels < stripWidth (loadAll prototypes load)
  · exact ⟨_, if_pos hcounted⟩
  · rw [build_eq prototypes load maxSize rfl rfl hcounted]
    by_cases hwide : maxSize < stripWidth (loadAll prototypes load)
    · exact ⟨_, if_pos hwide⟩
    · have hroom : ¬stripWidth (loadAll prototypes load) * stripHeight (loadAll prototypes load) *
          Pixel.bytes ≤ Memory.mostBytes :=
        fun hroom => h ⟨not_lt.mp hcounted, not_lt.mp hwide, hroom⟩
      rw [if_neg hwide, Memory.reserve, if_neg hroom]
      exact ⟨_, rfl⟩

end MaskAtlas

namespace Renderer

variable {D K : Type} [Device D K] [Scalar K] {device : Capabilities}
  {prototypes : List MaskPrototype} {load : String → Option Image} {r : Renderer K}

theorem loadMasks_run_of_error {failure : Failure}
    (h : (MaskAtlas.build prototypes load (r.widestAtlas device) : Except Failure (MaskAtlas K)) =
      .error failure) (d : D) :
    (loadMasks device prototypes load).run r d = (.error failure, r, d) := by
  have hscript := loadMasks_eq device prototypes load r
  rw [h] at hscript
  refine Pass.run_of_error ?_ (congrArg Script.outcome hscript)
  rw [hscript]
  rfl

/-- An atlas that is built is uploaded, and taken over unless the device refuses it. -/
theorem loadMasks_run_of_ok {masks : MaskAtlas K}
    (h : MaskAtlas.build prototypes load (r.widestAtlas device) = .ok masks) (d : Logged D K) :
    (loadMasks device prototypes load).run r d =
      match Device.perform d.device (.uploadMaskAtlas masks.image : Command K) with
      | (.ok (), next) =>
        (.ok (), { r with masks }, ⟨next, d.log ++ [(.uploadMaskAtlas masks.image, true)]⟩)
      | (.error message, next) =>
        (.error (.error (.backend message)), r,
          ⟨next, d.log ++ [(.uploadMaskAtlas masks.image, false)]⟩) := by
  have hscript := loadMasks_eq device prototypes load r
  rw [h] at hscript
  have hsteps := congrArg Script.steps hscript
  rcases hdevice : Device.perform d.device (.uploadMaskAtlas masks.image : Command K) with
    ⟨message | ⟨⟩, next⟩
  · refine Pass.run_of_refused ?_
    rw [hsteps, Pass.performAll, Logged.perform_of_error hdevice]
  · refine Pass.run_of_ok ?_ (congrArg Script.outcome hscript)
    rw [hsteps, Pass.performAll, Logged.perform_of_ok hdevice]
    rfl

/--
Loading masks uploads one atlas when it can be made, and otherwise it fails and asks for nothing.
The atlas is as wide as the masks side by side, which is not more than settings and device allow; it
is as high as the highest mask, which is not more than they allow exactly when no mask is higher.
-/
theorem loadMasks_uploads (device : Capabilities) (prototypes : List MaskPrototype)
    (load : String → Option Image) (r : Renderer K) (d : Logged D K) :
    let limit := r.widestAtlas device
    let loaded := MaskAtlas.loadAll prototypes load
    let run := (loadMasks device prototypes load).run r d
    (¬MaskAtlas.Fits loaded limit → ∃ failure, run = (.error failure, r, d)) ∧
    (MaskAtlas.Fits loaded limit →
      ∃ image granted, run.2.2.log = d.log ++ [(.uploadMaskAtlas image, granted)] ∧
        (run.1 = .ok () ↔ granted = true) ∧
        image.width = 1 + (loaded.map fun m => m.2.width).sum ∧ image.width ≤ limit ∧
        image.height = max 1 ((loaded.map fun m => m.2.height).max?.getD 0) ∧
        (image.height ≤ limit ↔ ∀ m ∈ loaded, m.2.height ≤ limit)) := by
  intro limit loaded run
  refine ⟨fun h => ?_, fun h => ?_⟩
  · obtain ⟨failure, hfailure⟩ := MaskAtlas.build_of_not_fits (K := K) h
    exact ⟨failure, loadMasks_run_of_error hfailure d⟩
  · have hrun : run = _ := loadMasks_run_of_ok (MaskAtlas.build_of_fits h) d
    have hheight : MaskAtlas.stripHeight loaded ≤ limit ↔ ∀ m ∈ loaded, m.2.height ≤ limit := by
      have hone : 1 ≤ limit := by
        refine le_trans ?_ h.width
        rw [MaskAtlas.stripWidth_eq]
        exact Nat.le_add_right 1 _
      rw [MaskAtlas.stripHeight_le_iff, and_iff_right hone]
    have hsize : MaskAtlas.stripWidth loaded = _ ∧ MaskAtlas.stripWidth loaded ≤ limit ∧
        MaskAtlas.stripHeight loaded = _ ∧ _ :=
      ⟨MaskAtlas.stripWidth_eq loaded, h.width, MaskAtlas.stripHeight_eq loaded, hheight⟩
    rw [hrun]
    split
    · exact ⟨_, true, rfl, by simp, hsize⟩
    · exact ⟨_, false, rfl, by simp, hsize⟩

def tallMasks : List MaskPrototype := [⟨"tall", some "tall.png"⟩]

def tallLoader (_ : String) : Option Image := some ⟨1, 16, fun _ _ => Pixel.white⟩

/-- A mask twice as high as a texture may be is uploaded and taken over. -/
theorem loadMasks_tallMasks :
    let r : Renderer Float32 := new Config.standard
    r.widestAtlas ⟨8, true⟩ = 8 ∧
      ∃ masks : MaskAtlas Float32,
        loadMasks ⟨8, true⟩ tallMasks tallLoader r =
          ⟨[(.uploadMaskAtlas masks.image, r)], .ok ((), { r with masks })⟩ ∧
        masks.image.height = 16 :=
  ⟨rfl, MaskAtlas.ofMasks (MaskAtlas.loadAll tallMasks tallLoader), rfl, rfl⟩

end Renderer

end Penumbra
