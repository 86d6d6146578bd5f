import Mathlib
import Penumbra.Proofs.Frame.Session
import Penumbra.Proofs.Numeric.Values

/-!
# Changes of settings

A change of settings raises a flag for each kind of resource that has to be made anew.  The flags
compare what the user wrote, while the resources are sized by limits, which bound what was written
and mix it.  All the same, two settings for which a flag is not raised have the same limits, with one
exception: the rows of the shadow atlas are also bounded by the number of lights, which the flag of
the textures passes over.

**Results**

* `eq_of_renderTargets`: what the flag of the textures says when it is not raised.
* `resolutionScale_eq_of_beq`: scales that are not told apart have the same bounded scale.
* `shadowRows_eq_iff`: settings with as many rows in the shadow atlas.
* `changesFrom_covers`: what stays when a flag is not raised.
-/

namespace Penumbra

section Atlas

variable {K : Type} [Scalar K] {next previous : Config K}

theorem eq_of_renderTargets (h : (next.changesFrom previous).renderTargets = false) :
    (next.resolutionScale == previous.resolutionScale) = true ∧
      next.softShadows = previous.softShadows ∧
      next.maxShadowCasters = previous.maxShadowCasters := by
  simpa [Config.changesFrom, and_assoc] using h

/-- Most rows that some settings can give to the shadow atlas, however many lights they allow. -/
def Config.mostShadowRows (c : Config K) : Nat := min c.maxShadowCasters Limits.mostShadowLights

theorem shadowRows_ofConfig (c : Config K) :
    (Limits.ofConfig c).shadowRows = max (min c.mostShadowRows (max c.maxLightCount 1)) 1 := by
  simp only [Limits.shadowRows, Limits.ofConfig, Config.mostShadowRows]
  omega

/-- Settings that allow as many shadows have the same rows unless their lights bound these. -/
theorem shadowRows_eq_iff (h : next.maxShadowCasters = previous.maxShadowCasters) :
    (Limits.ofConfig next).shadowRows = (Limits.ofConfig previous).shadowRows ↔
      min previous.mostShadowRows (max next.maxLightCount 1) =
        min previous.mostShadowRows (max previous.maxLightCount 1) := by
  rw [shadowRows_ofConfig, shadowRows_ofConfig]
  simp only [Config.mostShadowRows, h]
  omega

end Atlas

section Scale

variable {a b : Float32}

theorem lt_smallestResolutionScale_of_zero (h : ∃ s, unpacked a = .zero s) :
    a < Limits.smallestResolutionScale := by
  obtain ⟨s, hs⟩ := h
  rw [lt_iff_compare, hs]
  cases s <;> decide +kernel

/-- The two zeros are not told apart although they differ, but both are below the smallest scale. -/
theorem resolutionScale_eq_of_beq {next previous : Config Float32}
    (h : (next.resolutionScale == previous.resolutionScale) = true) :
    (Limits.ofConfig next).resolutionScale = (Limits.ofConfig previous).resolutionScale := by
  simp only [Limits.ofConfig]
  rcases eq_or_zero_of_beq h with hsame | ⟨hnext, hprevious⟩
  · rw [hsame]
  · rw [if_pos (lt_smallestResolutionScale_of_zero hnext),
      if_pos (lt_smallestResolutionScale_of_zero hprevious)]

end Scale

section Coverage

/-- The sizes of textures by what they depend on. -/
theorem targetSizes_of_resolutionScale {K : Type} [Scalar K] (v : Viewport K)
    {limits former : Limits K} (h : limits.resolutionScale = former.resolutionScale) :
    TargetSizes.new v limits =
        { TargetSizes.new v former with shadowAtlas := ⟨shadowMapSize, limits.shadowRows⟩ } ∧
      (TargetSizes.new v limits = TargetSizes.new v former ↔
        limits.shadowRows = former.shadowRows) := by
  simp [TargetSizes.new, h]

/--
What two settings share when a flag is not raised.  Without the flag of the textures all sizes of
textures but that of the shadow atlas are the same; the atlas is the same if and only if the lights
bound its rows in neither of the settings, or in both to the same number.  So all sizes are the same
when the flag of the lights is not raised either, and all limits when there is no flag at all.
-/
theorem changesFrom_covers (next previous : Config Float32) (v : Viewport Float32) :
    let changes := next.changesFrom previous
    let limits := Limits.ofConfig next
    let former := Limits.ofConfig previous
    let sizes := TargetSizes.new v limits
    let formerSizes := TargetSizes.new v former
    (changes.lightCapacity = false → limits.maxLights = former.maxLights ∧
      limits.maxShadowLights = former.maxShadowLights ∧ limits.batchQuads = former.batchQuads) ∧
    (changes.occluderCapacity = false → limits.maxOccluders = former.maxOccluders) ∧
    (changes.renderTargets = false →
      sizes = { formerSizes with shadowAtlas := ⟨shadowMapSize, limits.shadowRows⟩ } ∧
      (sizes = formerSizes ↔
        min previous.mostShadowRows (max next.maxLightCount 1) =
          min previous.mostShadowRows (max previous.maxLightCount 1)) ∧
      (changes.lightCapacity = false → sizes = formerSizes)) ∧
    (changes.any = false → limits = former) := by
  intro changes limits former sizes formerSizes
  refine ⟨?_, ?_, ?_, ?_⟩
  · intro hlight
    obtain ⟨hlights, hshadows, hbatch⟩ := eq_of_lightCapacity hlight
    simp only [limits, former, Limits.ofConfig, hlights, hshadows, hbatch, and_self]
  · intro hwall
    simp only [limits, former, Limits.ofConfig, eq_of_occluderCapacity hwall]
  · intro htargets
    obtain ⟨hscale, -, hshadows⟩ := eq_of_renderTargets htargets
    obtain ⟨hsizes, hsame⟩ := targetSizes_of_resolutionScale v (resolutionScale_eq_of_beq hscale)
    have hrows := hsame.trans (shadowRows_eq_iff hshadows)
    refine ⟨hsizes, hrows, ?_⟩
    intro hlight
    exact hrows.mpr (by rw [(eq_of_lightCapacity hlight).1])
  · intro hany
    rw [ConfigChanges.any, Bool.or_eq_false_iff, Bool.or_eq_false_iff] at hany
    obtain ⟨⟨hlight, hwall⟩, htargets⟩ := hany
    obtain ⟨hlights, hshadows, hbatch⟩ := eq_of_lightCapacity hlight
    have hwalls := eq_of_occluderCapacity hwall
    have hscale := resolutionScale_eq_of_beq (eq_of_renderTargets htargets).1
    simp only [Limits.ofConfig] at hscale
    simp only [limits, former, Limits.ofConfig, hlights, hshadows, hbatch, hwalls, hscale]

/-- More lights need more rows in the shadow atlas, and the flag of the textures does not tell. -/
theorem renderTargets_moreLights :
    let previous : Config Float32 := { Config.standard with maxLightCount := 16 }
    let next : Config Float32 := { Config.standard with maxLightCount := 64 }
    (next.changesFrom previous).renderTargets = false ∧
      ∀ v, TargetSizes.new v (Limits.ofConfig next) ≠
        TargetSizes.new v (Limits.ofConfig previous) := by
  intro previous next
  refine ⟨by decide +kernel, ?_⟩
  intro v hsizes
  have hrows : 64 = 16 := congrArg (fun sizes => sizes.shadowAtlas.height) hsizes
  omega

end Coverage

end Penumbra
