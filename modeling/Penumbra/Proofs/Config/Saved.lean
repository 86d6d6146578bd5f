import Penumbra.Config.Text
import Penumbra.Proofs.Json.Written

/-!
# Settings that are saved and loaded

Settings that were loaded have counts that a machine word holds, and 32-bit numbers that are numbers
or infinite.  Saved and loaded again they are the same settings, unless one of the two 32-bit numbers
is infinite, because a number in the text was above their range: infinity is written as `null`, and
this is no number.

**Results**

* `Config.Loaded`, `Config.loaded_of_ofText`: what loaded settings are like.
* `Config.ofJson?_toJson`: what becomes of settings that are written as a record.
* `Config.ofText_toText`: what becomes of loaded settings that are saved and loaded again.
-/

namespace Penumbra

namespace Fields

variable {α : Type} {fields : Fields} {name : String} {default v : α} {read : Json → Option α}

/-- A field that is given goes on with what it is read as, if it can be read. -/
theorem bind_withDefault {β : Type} {value : Json} (h : fields.lookup name = some value)
    {result : Option α} (hread : read value = result) (f : α → Option β) :
    (fields.withDefault name default read).bind f = result.bind f := by
  rw [withDefault, h, ← hread]

/-- A field has what its default and all that can be read have. -/
theorem of_withDefault (P : α → Prop) (h : fields.withDefault name default read = some v)
    (hdefault : P default) (hread : ∀ {j w}, read j = some w → P w) : P v := by
  rw [withDefault] at h
  split at h
  · exact hread h
  · exact Option.some.inj h ▸ hdefault

end Fields

namespace Json

variable {j : Json} {n bound : Nat} {x : Float32}

theorem lt_wordBound_of_toNatural? (h : j.toNatural? = some n) : n < Numeral.wordBound := by
  cases j with
  | number numeral =>
      rw [toNatural?, Numeral.toNatural?] at h
      split_ifs at h with hword
      simp only [Bool.and_eq_true, decide_eq_true_eq] at hword
      exact Option.some.inj h ▸ hword.2
  | _ => cases h

theorem lt_of_toNaturalBelow? (h : j.toNaturalBelow? bound = some n) : n < bound := by
  obtain ⟨m, -, hlt⟩ := Option.bind_eq_some_iff.mp h
  split_ifs at hlt with hm
  exact Option.some.inj hlt ▸ hm

theorem isNumber_of_toSingle? (h : j.toSingle? = some x) : Scalar.isNumber x = true := by
  cases j with
  | number numeral => exact Numeral.isNumber_of_toSingle? h
  | _ => cases h

end Json

namespace Config

variable {c : Config Float32} {j : Json} {text : String}

/-- What settings are like that were loaded. -/
structure Loaded (c : Config Float32) : Prop where
  maxLightCount : c.maxLightCount < Numeral.wordBound
  maxShadowCasters : c.maxShadowCasters < Numeral.wordBound
  maxOccluderCount : c.maxOccluderCount < Numeral.wordBound
  batchQuads : c.batchQuads < Numeral.wordBound
  atlasMaxSize : c.atlasMaxSize < pixelBound
  resolutionScale : Scalar.isNumber c.resolutionScale = true
  lightBlurFactor : Scalar.isNumber c.lightBlurFactor = true

theorem loaded_of_ofJson? (h : ofJson? j = some c) : c.Loaded := by
  rw [ofJson?] at h
  obtain ⟨fields, -, h⟩ := Option.bind_eq_some_iff.mp h
  obtain ⟨enabled, -, h⟩ := Option.bind_eq_some_iff.mp h
  obtain ⟨drawLighting, -, h⟩ := Option.bind_eq_some_iff.mp h
  obtain ⟨drawShadows, -, h⟩ := Option.bind_eq_some_iff.mp h
  obtain ⟨lights, hlights, h⟩ := Option.bind_eq_some_iff.mp h
  obtain ⟨casters, hcasters, h⟩ := Option.bind_eq_some_iff.mp h
  obtain ⟨occluders, hoccluders, h⟩ := Option.bind_eq_some_iff.mp h
  obtain ⟨scale, hscale, h⟩ := Option.bind_eq_some_iff.mp h
  obtain ⟨softShadows, -, h⟩ := Option.bind_eq_some_iff.mp h
  obtain ⟨blur, -, h⟩ := Option.bind_eq_some_iff.mp h
  obtain ⟨factor, hfactor, h⟩ := Option.bind_eq_some_iff.mp h
  obtain ⟨color, -, h⟩ := Option.bind_eq_some_iff.mp h
  obtain ⟨atlas, hatlas, h⟩ := Option.bind_eq_some_iff.mp h
  obtain ⟨quads, hquads, h⟩ := Option.bind_eq_some_iff.mp h
  obtain rfl := Option.some.inj h
  have hcount : ∀ {name default n},
      fields.withDefault name default Json.toNatural? = some n → default < Numeral.wordBound →
        n < Numeral.wordBound := fun h hdefault =>
    Fields.of_withDefault (· < Numeral.wordBound) h hdefault Json.lt_wordBound_of_toNatural?
  have hnumber : ∀ {name default x},
      fields.withDefault name default Json.toSingle? = some x → Scalar.isNumber default = true →
        Scalar.isNumber x = true := fun h hdefault =>
    Fields.of_withDefault (Scalar.isNumber · = true) h hdefault Json.isNumber_of_toSingle?
  exact {
    maxLightCount := hcount hlights (by decide)
    maxShadowCasters := hcount hcasters (by decide)
    maxOccluderCount := hcount hoccluders (by decide)
    batchQuads := hcount hquads (by decide)
    atlasMaxSize :=
      Fields.of_withDefault (· < pixelBound) hatlas (by decide) Json.lt_of_toNaturalBelow?
    resolutionScale := hnumber hscale (by decide)
    lightBlurFactor := hnumber hfactor (by decide) }

theorem legal_toJson (c : Config Float32) : c.toJson.Legal := by
  refine .object ?_
  simp only [List.forall_mem_cons, List.not_mem_nil, false_imp_iff, implies_true, and_true]
  exact ⟨.bool _, .bool _, .bool _, Json.legal_ofNatural _, Json.legal_ofNatural _,
    Json.legal_ofNatural _, Json.legal_ofSingle _, .bool _, .bool _, Json.legal_ofSingle _, .text _,
    Json.legal_ofNatural _, Json.legal_ofNatural _⟩

/-- Whether one of the 32-bit numbers of the settings is infinite. -/
def hasInfinite (c : Config Float32) : Bool :=
  Binary32.isInfinite c.resolutionScale || Binary32.isInfinite c.lightBlurFactor

/-- Settings that are written as a record are read back, unless a number is infinite. -/
theorem ofJson?_toJson (hc : c.Loaded) :
    ofJson? c.toJson = if c.hasInfinite then none else some c := by
  have hpixels : pixelBound < Numeral.wordBound := by
    decide
  obtain ⟨fields, hrecord, hlookup⟩ : ∃ fields, c.toJson.record? fieldNames = some fields ∧ _ :=
    Json.exists_record? (by simp [fieldNames]) (by decide : fieldNames.Nodup)
  simp only [List.forall_mem_cons, List.not_mem_nil, false_imp_iff, implies_true, and_true]
    at hlookup
  obtain ⟨henabled, hdraw, hshadows, hlights, hcasters, hoccluders, hscale, hsoft, hblur, hfactor,
    hcolor, hatlas, hquads⟩ := hlookup
  have hbool : ∀ b, Json.toBool? (.bool b) = some b := fun _ => rfl
  have htext : Json.toText? (Json.ofText c.fovColor) = some c.fovColor := rfl
  have hsize := Json.toNaturalBelow?_ofNatural (hc.atlasMaxSize.trans hpixels) hc.atlasMaxSize
  -- All fields but two are read at once; what is left depends on these two.
  have hread : ofJson? c.toJson =
      (Json.ofSingle c.resolutionScale).toSingle?.bind fun resolutionScale =>
        (Json.ofSingle c.lightBlurFactor).toSingle?.bind fun lightBlurFactor =>
          some { c with resolutionScale, lightBlurFactor } := by
    rw [ofJson?, hrecord]
    dsimp only [Option.bind_eq_bind, Option.bind_some]
    rw [Fields.bind_withDefault henabled (hbool _), Option.bind_some,
      Fields.bind_withDefault hdraw (hbool _), Option.bind_some,
      Fields.bind_withDefault hshadows (hbool _), Option.bind_some,
      Fields.bind_withDefault hlights (Json.toNatural?_ofNatural hc.maxLightCount), Option.bind_some,
      Fields.bind_withDefault hcasters (Json.toNatural?_ofNatural hc.maxShadowCasters),
      Option.bind_some,
      Fields.bind_withDefault hoccluders (Json.toNatural?_ofNatural hc.maxOccluderCount),
      Option.bind_some, Fields.bind_withDefault hscale rfl]
    congr 1
    funext scale
    rw [Fields.bind_withDefault hsoft (hbool _), Option.bind_some,
      Fields.bind_withDefault hblur (hbool _), Option.bind_some, Fields.bind_withDefault hfactor rfl]
    congr 1
    funext factor
    rw [Fields.bind_withDefault hcolor htext, Option.bind_some,
      Fields.bind_withDefault hatlas hsize, Option.bind_some,
      Fields.bind_withDefault hquads (Json.toNatural?_ofNatural hc.batchQuads), Option.bind_some]
    rfl
  rw [hread, Json.toSingle?_ofSingle hc.resolutionScale, Json.toSingle?_ofSingle hc.lightBlurFactor,
    hasInfinite]
  cases Binary32.isInfinite c.resolutionScale <;> cases Binary32.isInfinite c.lightBlurFactor <;> rfl

/-- What becomes of settings that are saved and loaded. -/
theorem ofText_of_loaded (hc : c.Loaded) :
    ofText c.toText = if c.hasInfinite then .error .configInvalid else .ok c := by
  rw [ofText, toText, Json.ofString?_pretty (legal_toJson c), Option.bind_some, ofJson?_toJson hc]
  cases c.hasInfinite <;> rfl

theorem loaded_of_ofText (h : ofText text = .ok c) : c.Loaded := by
  rw [ofText] at h
  split at h
  · rename_i config hread
    obtain ⟨j, -, hj⟩ := Option.bind_eq_some_iff.mp hread
    obtain rfl := Except.ok.inj h
    exact loaded_of_ofJson? hj
  · cases h

/-- A text that is loaded as settings of some kind. -/
theorem exists_ofText (text : String) (P : Config Float32 → Prop) [DecidablePred P]
    (h : (ofText text).toOption.any (P ·) = true) : ∃ c, ofText text = .ok c ∧ P c := by
  cases hread : ofText text with
  | error e =>
      rw [hread] at h
      cases h
  | ok c =>
      rw [hread] at h
      exact ⟨c, rfl, of_decide_eq_true h⟩

theorem Loaded.beq_self (hc : c.Loaded) : (c == c) = true := by
  have hscale : (c.resolutionScale == c.resolutionScale) = true := hc.resolutionScale
  have hfactor : (c.lightBlurFactor == c.lightBlurFactor) = true := hc.lightBlurFactor
  change instBEqConfig.beq c c = true
  rw [instBEqConfig.beq.eq_def]
  simp [hscale, hfactor]

/--
Whatever the text was that settings were loaded from, saving them makes a text that is loaded as the
same settings, unless one of their 32-bit numbers is infinite; then it is refused.
-/
theorem ofText_toText (h : ofText text = .ok c) :
    (c == c) = true ∧
      ofText c.toText =
        if Binary32.isInfinite c.resolutionScale || Binary32.isInfinite c.lightBlurFactor
        then .error .configInvalid else .ok c :=
  ⟨(loaded_of_ofText h).beq_self, ofText_of_loaded (loaded_of_ofText h)⟩

theorem ofText_toText_escaped :
    ∃ c, ofText "\x7b\"fov_color\":\"\\\"\\u00e9\",\"light_blur_factor\":1e-1,\"x\":[]\x7d" = .ok c ∧
      (c.fovColor = "\"é" ∧ c.lightBlurFactor = 0.1) ∧ (c == c) = true ∧
        ofText c.toText = .ok c := by
  obtain ⟨c, hc, hcolor, hfactor, hscale⟩ := exists_ofText
    "\x7b\"fov_color\":\"\\\"\\u00e9\",\"light_blur_factor\":1e-1,\"x\":[]\x7d"
    (fun c => c.fovColor = "\"é" ∧ c.lightBlurFactor = 0.1 ∧ c.resolutionScale = 0.5)
    (by decide +kernel)
  have hfinite : (Binary32.isInfinite c.resolutionScale || Binary32.isInfinite c.lightBlurFactor) =
      false := by
    rw [hscale, hfactor]
    decide +kernel
  obtain ⟨hself, hsaved⟩ := ofText_toText hc
  rw [hfinite, if_neg Bool.false_ne_true] at hsaved
  exact ⟨c, hc, ⟨hcolor, hfactor⟩, hself, hsaved⟩

/-- A number above the range is accepted, and what is saved afterwards is not. -/
theorem ofText_toText_aboveRange :
    ∃ c, ofText "\x7b\"light_resolution_scale\":1e39\x7d" = .ok c ∧
      ofText c.toText = .error .configInvalid := by
  obtain ⟨c, hc, hinfinite⟩ := exists_ofText "\x7b\"light_resolution_scale\":1e39\x7d"
    (fun c => Binary32.isInfinite c.resolutionScale = true) (by decide +kernel)
  refine ⟨c, hc, ?_⟩
  rw [ofText_of_loaded (loaded_of_ofText hc), hasInfinite, hinfinite]
  rfl

end Config
end Penumbra
