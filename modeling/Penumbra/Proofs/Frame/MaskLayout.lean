import Mathlib
import Penumbra.Frame.MaskAtlas
import Penumbra.Proofs.Numeric.Counts

/-!
# The layout of the mask atlas

Masks stand in the atlas in the order in which they are loaded, each one right of the ones before
it.  So they do not overlap, a pixel belongs to one mask at most, and a light that asks for a mask
by its name gets the part of the atlas where the pixels of the last mask of that name are.

A loader is asked for pictures by their names, and what it does not find is left out.  Any list of
masks can be loaded, also one for which a loader would have to give different pictures for a name.

**Results**

* `MaskAtlas.stripWidth_eq`, `MaskAtlas.stripHeight_eq`: the size of the atlas.
* `find?_placeMasks`: the mask that a pixel belongs to.
* `MaskAtlas.Layout`, `MaskAtlas.layout_ofMasks`: each pixel of an atlas, and the part of each mask.
* `MaskAtlas.build_layout`: when an atlas is built, and that it is laid out so.
-/

namespace Penumbra

section Placing

variable {loaded : List (String × Image)} {left i x y : Nat} {m : String × Image}

/-- Columns that the first masks take. -/
def widthBefore (loaded : List (String × Image)) (i : Nat) : Nat :=
  ((loaded.take i).map fun m => m.2.width).sum

theorem widthBefore_succ (first : String × Image) (rest : List (String × Image)) (i : Nat) :
    widthBefore (first :: rest) (i + 1) = first.2.width + widthBefore rest i := rfl

theorem getElem?_placeMasks (left : Nat) (loaded : List (String × Image)) (i : Nat) :
    (placeMasks left loaded)[i]? =
      loaded[i]?.map fun m => ⟨m.1, left + widthBefore loaded i, m.2⟩ := by
  induction loaded generalizing left i with
  | nil => rfl
  | cons first rest ih =>
      cases i with
      | zero => rfl
      | succ i =>
          rw [placeMasks, List.getElem?_cons_succ, ih, widthBefore_succ, Nat.add_assoc]
          rfl

/-- A pixel of a mask belongs to no other one, because the masks before it end further left. -/
theorem find?_placeMasks (h : loaded[i]? = some m) (hlow : left + widthBefore loaded i ≤ x)
    (hhigh : x < left + widthBefore loaded i + m.2.width) (hy : y < m.2.height) :
    (placeMasks left loaded).find? (·.covers x y) =
      some ⟨m.1, left + widthBefore loaded i, m.2⟩ := by
  induction loaded generalizing left i with
  | nil => cases h
  | cons first rest ih =>
      cases i with
      | zero =>
          obtain rfl : first = m := Option.some.inj h
          refine List.find?_cons_of_pos ?_
          simp only [widthBefore, List.take_zero, List.map_nil, List.sum_nil] at hlow hhigh
          simp only [PlacedMask.covers, Bool.and_eq_true, decide_eq_true_eq]
          omega
      | succ i =>
          rw [widthBefore_succ] at hlow hhigh ⊢
          have hfirst : PlacedMask.covers ⟨first.1, left, first.2⟩ x y = false := by
            simp only [PlacedMask.covers, Bool.and_eq_false_iff, decide_eq_false_iff_not]
            omega
          rw [placeMasks, List.find?_cons, hfirst]
          exact (ih h (by omega) (by omega)).trans (by rw [Nat.add_assoc])

theorem find?_placeMasks_eq_none
    (h : ∀ i m, loaded[i]? = some m → ¬(left + widthBefore loaded i ≤ x ∧
      x < left + widthBefore loaded i + m.2.width ∧ y < m.2.height)) :
    (placeMasks left loaded).find? (·.covers x y) = none := by
  refine List.find?_eq_none.mpr fun placed hplaced => ?_
  obtain ⟨i, hi⟩ := List.mem_iff_getElem?.mp hplaced
  rw [getElem?_placeMasks, Option.map_eq_some_iff] at hi
  obtain ⟨m, hm, rfl⟩ := hi
  simpa only [PlacedMask.covers, Bool.and_eq_true, decide_eq_true_eq, and_assoc] using h i m hm

end Placing

section Names

variable {β : Type} {entries : List (String × β)} {name : String}

/-- Of several entries with a name the last one is found from the end. -/
theorem lookup_reverse_eq_some {i : Nat} {b : β} (h : entries[i]? = some (name, b))
    (hlast : ∀ j entry, i < j → entries[j]? = some entry → entry.1 ≠ name) :
    entries.reverse.lookup name = some b := by
  obtain ⟨hi, hentry⟩ := List.getElem?_eq_some_iff.mp h
  rw [List.lookup_eq_some_iff]
  refine ⟨(entries.drop (i + 1)).reverse, (entries.take i).reverse, ?_, ?_⟩
  · have hsplit : entries = entries.take i ++ (name, b) :: entries.drop (i + 1) := by
      rw [← hentry, ← List.drop_eq_getElem_cons hi, List.take_append_drop]
    calc entries.reverse = (entries.take i ++ (name, b) :: entries.drop (i + 1)).reverse := by
          rw [← hsplit]
      _ = (entries.drop (i + 1)).reverse ++ (name, b) :: (entries.take i).reverse := by
          simp
  · intro entry hmem
    rw [List.mem_reverse, List.mem_iff_getElem?] at hmem
    obtain ⟨k, hk⟩ := hmem
    rw [List.getElem?_drop] at hk
    exact bne_iff_ne.mpr (hlast (i + 1 + k) entry (by omega) hk).symm

end Names

namespace MaskAtlas

section Size

theorem foldl_width (loaded : List (String × Image)) (start : Nat) :
    loaded.foldl (fun width m => width + m.2.width) start =
      start + (loaded.map fun m => m.2.width).sum := by
  induction loaded generalizing start with
  | nil => rfl
  | cons m rest ih => rw [List.foldl_cons, ih, List.map_cons, List.sum_cons, Nat.add_assoc]

theorem stripWidth_eq (loaded : List (String × Image)) :
    stripWidth loaded = 1 + (loaded.map fun m => m.2.width).sum := foldl_width loaded 1

theorem stripHeight_eq (loaded : List (String × Image)) :
    stripHeight loaded = max 1 ((loaded.map fun m => m.2.height).max?.getD 0) := by
  cases loaded with
  | nil => rfl
  | cons m rest =>
      rw [stripHeight, List.map_cons, List.foldl_cons, List.foldl_assoc, List.max?_cons',
        Option.getD_some]

end Size

/-- The atlas of some masks: its size, each of its pixels, and the part of it for each name. -/
structure Layout (atlas : MaskAtlas Float32) (loaded : List (String × Image)) : Prop where
  width : atlas.image.width = 1 + (loaded.map fun m => m.2.width).sum
  height : atlas.image.height = max 1 ((loaded.map fun m => m.2.height).max?.getD 0)
  white : atlas.image.pixel 0 0 = Pixel.white
  /-- A mask starts behind the white pixel and the masks before it, and has its own pixels. -/
  mask : ∀ i m, loaded[i]? = some m → ∀ x y, x < m.2.width → y < m.2.height →
    atlas.image.pixel (1 + widthBefore loaded i + x) y = m.2.pixel x y
  clear : ∀ x y, ¬(x = 0 ∧ y = 0) →
    (∀ i m, loaded[i]? = some m → ¬(1 + widthBefore loaded i ≤ x ∧
      x < 1 + widthBefore loaded i + m.2.width ∧ y < m.2.height)) →
    atlas.image.pixel x y = Pixel.clear
  /-- The last mask of a name is what the name stands for. -/
  box : ∀ i m, loaded[i]? = some m →
    (∀ j m', i < j → loaded[j]? = some m' → m'.1 ≠ m.1) →
    let w : Float32 := Scalar.ofNat atlas.image.width
    let h : Float32 := Scalar.ofNat atlas.image.height
    atlas.uvBox (some m.1) =
      ⟨Scalar.ofNat (1 + widthBefore loaded i) / w, (h - Scalar.ofNat m.2.height) / h,
        Scalar.ofNat (1 + widthBefore loaded i + m.2.width) / w, 1.0⟩
  unmasked : ∀ name : Option String, (∀ m ∈ loaded, name ≠ some m.1) →
    let w : Float32 := Scalar.ofNat atlas.image.width
    let h : Float32 := Scalar.ofNat atlas.image.height
    atlas.uvBox name = ⟨0.0, (h - 1.0) / h, 1.0 / w, 1.0⟩

section Pixels

variable {loaded : List (String × Image)} {x y : Nat}

theorem pixel_ofMasks (h : ¬(x = 0 ∧ y = 0)) :
    (ofMasks (K := Float32) loaded).image.pixel x y =
      match (placeMasks 1 loaded).find? (·.covers x y) with
      | some m => m.image.pixel (x - m.left) y
      | none => Pixel.clear := by
  refine if_neg ?_
  simpa using h

theorem getElem?_boxes (loaded : List (String × Image)) (i : Nat) :
    (ofMasks (K := Float32) loaded).boxes[i]? = loaded[i]?.map fun m =>
      (m.1, uvOf (stripWidth loaded) (stripHeight loaded) (1 + widthBefore loaded i) 0
        (1 + widthBefore loaded i + m.2.width) m.2.height) := by
  rw [ofMasks, List.getElem?_map, getElem?_placeMasks, Option.map_map]
  rfl

end Pixels

/-- An atlas whose sides are finite machine numbers is laid out. -/
theorem layout_ofMasks (loaded : List (String × Image)) (hwidth : stripWidth loaded < 2 ^ 100)
    (hheight : stripHeight loaded < 2 ^ 100) : (ofMasks loaded).Layout loaded where
  width := stripWidth_eq loaded
  height := stripHeight_eq loaded
  white := rfl
  mask i m hm x y hx hy := by
    have hfind : (placeMasks 1 loaded).find? (·.covers (1 + widthBefore loaded i + x) y) =
        some ⟨m.1, 1 + widthBefore loaded i, m.2⟩ :=
      find?_placeMasks hm (by omega) (by omega) hy
    rw [pixel_ofMasks (by omega), hfind]
    simp only [Nat.add_sub_cancel_left]
  clear x y hxy hnone := by
    rw [pixel_ofMasks hxy, find?_placeMasks_eq_none hnone]
  box i m hm hlast := by
    intro w h
    have hpositive : stripHeight loaded ≠ 0 := by
      rw [stripHeight_eq]
      omega
    have hbox := getElem?_boxes loaded i
    rw [hm, Option.map_some] at hbox
    have hlookup := lookup_reverse_eq_some hbox fun j entry hj hentry => by
      rw [getElem?_boxes, Option.map_eq_some_iff] at hentry
      obtain ⟨m', hm', rfl⟩ := hentry
      exact hlast j m' hj hm'
    rw [uvBox, Option.bind_some, hlookup, Option.getD_some, uvOf,
      Binary32.sub_zero_div_self hpositive hheight]
    rfl
  unmasked name hname := by
    intro w h
    have hpositive : stripHeight loaded ≠ 0 := by
      rw [stripHeight_eq]
      omega
    have hpositive' : stripWidth loaded ≠ 0 := by
      rw [stripWidth_eq]
      omega
    have hnone : (name.bind fun id =>
        (ofMasks (K := Float32) loaded).boxes.reverse.lookup id) = none := by
      rw [Option.bind_eq_none_iff]
      intro id hid
      rw [List.lookup_eq_none_iff]
      intro entry hentry
      rw [List.mem_reverse, List.mem_iff_getElem?] at hentry
      obtain ⟨i, hi⟩ := hentry
      rw [getElem?_boxes, Option.map_eq_some_iff] at hi
      obtain ⟨m, hm, rfl⟩ := hi
      exact bne_iff_ne.mpr fun heq =>
        hname m (List.mem_iff_getElem?.mpr ⟨i, hm⟩) (hid.trans (congrArg some heq))
    rw [uvBox, hnone, Option.getD_none, ofMasks]
    simp only [uvOf, Binary32.sub_zero_div_self hpositive hheight,
      Binary32.zero_div_ofNat hpositive' hwidth]
    rfl

section Build

variable (prototypes : List MaskPrototype) (load : String → Option Image) (maxSize : Nat)

/-- An atlas whose columns can be counted is refused when it is too wide or takes too much room. -/
theorem build_eq {K : Type} [Scalar K] {width height : Nat}
    (hwidth : stripWidth (loadAll prototypes load) = width)
    (hheight : stripHeight (loadAll prototypes load) = height) (h : ¬maxPixels < width) :
    build (K := K) prototypes load maxSize =
      if maxSize < width then .error (.error (.atlasTooWide width maxSize))
      else
        match Memory.reserve (width * height) Pixel.bytes with
        | .error f => .error (.fault f)
        | .ok () => .ok (ofMasks (loadAll prototypes load)) := by
  subst hwidth hheight
  exact if_neg h

/--
**The layout of the mask atlas.**  As long as columns can be counted in 32 bits, an atlas is refused
as too wide exactly when the white pixel and the masks that load are wider than a texture may be.
One that is not refused is laid out, unless no memory has room for its pixels.
-/
theorem build_layout
    (hcolumns : 1 + ((loadAll prototypes load).map fun m => m.2.width).sum < 2 ^ 32) :
    let loaded := loadAll prototypes load
    let width := 1 + (loaded.map fun m => m.2.width).sum
    let height := max 1 ((loaded.map fun m => m.2.height).max?.getD 0)
    let atlas? : Except Failure (MaskAtlas Float32) := build prototypes load maxSize
    (atlas? = .error (.error (.atlasTooWide width maxSize)) ↔ maxSize < width) ∧
      (width ≤ maxSize → Memory.mostBytes < width * height * Pixel.bytes →
        atlas? = .error (.fault .sizeExceeded)) ∧
      (width ≤ maxSize → width * height * Pixel.bytes ≤ Memory.mostBytes →
        ∃ atlas, atlas? = .ok atlas ∧ atlas.Layout loaded) := by
  intro loaded width height atlas?
  have hwidth : stripWidth loaded = width := stripWidth_eq loaded
  have hheight : stripHeight loaded = height := stripHeight_eq loaded
  have hbelow : width < 2 ^ 32 := hcolumns
  have hcounted : ¬maxPixels < width := by
    rw [maxPixels]
    omega
  have hbuild : atlas? = _ := build_eq prototypes load maxSize hwidth hheight hcounted
  refine ⟨⟨fun h => ?_, fun h => ?_⟩, ?_, ?_⟩
  · by_contra hfits
    rw [hbuild, if_neg hfits] at h
    split at h <;> cases h
  · rw [hbuild, if_pos h]
  · intro hfits hmemory
    rw [hbuild, if_neg hfits.not_gt, Memory.reserve, if_neg hmemory.not_ge]
  · intro hfits hmemory
    refine ⟨ofMasks loaded, ?_, layout_ofMasks loaded ?_ ?_⟩
    · rw [hbuild, if_neg hfits.not_gt, Memory.reserve, if_pos hmemory]
    · rw [hwidth]
      exact hbelow.trans (by norm_num)
    · have hpositive : 0 < width := Nat.add_pos_left Nat.one_pos _
      calc stripHeight loaded = height := hheight
        _ ≤ width * height := Nat.le_mul_of_pos_left height hpositive
        _ ≤ width * height * Pixel.bytes := Nat.le_mul_of_pos_right _ (by decide)
        _ ≤ Memory.mostBytes := hmemory
        _ < 2 ^ 100 := by decide

def cone : Image := ⟨4, 2, fun _ _ => Pixel.white⟩

/-- A mask that loads, one that does not, and one without a picture. -/
def coneMasks : List MaskPrototype :=
  [⟨"cone", some "cone.png"⟩, ⟨"lost", some "lost.png"⟩, ⟨"bare", none⟩]

def coneLoader (name : String) : Option Image := if name = "cone.png" then some cone else none

theorem build_layout_coneMasks :
    1 + ((loadAll coneMasks coneLoader).map fun m => m.2.width).sum < 2 ^ 32 ∧
      ∃ atlas, build (K := Float32) coneMasks coneLoader 8192 = .ok atlas ∧
        atlas.Layout (loadAll coneMasks coneLoader) := by
  have hcolumns : 1 + ((loadAll coneMasks coneLoader).map fun m => m.2.width).sum < 2 ^ 32 := by
    decide
  exact ⟨hcolumns, (build_layout coneMasks coneLoader 8192 hcolumns).2.2 (by decide) (by decide)⟩

def emptyMasks : List MaskPrototype := [⟨"flat", some "flat.png"⟩, ⟨"thin", some "thin.png"⟩]

/-- Pictures without pixels, whose sides together make an atlas that no memory has room for. -/
def emptyLoader (name : String) : Option Image :=
  if name = "flat.png" then some ⟨4294967294, 0, fun _ _ => Pixel.clear⟩
  else some ⟨0, 4294967295, fun _ _ => Pixel.clear⟩

/-- An atlas may fail to be built although it is not too wide. -/
theorem build_emptyMasks :
    1 + ((loadAll emptyMasks emptyLoader).map fun m => m.2.width).sum = 4294967295 ∧
      build (K := Float32) emptyMasks emptyLoader 4294967295 = .error (.fault .sizeExceeded) ∧
      ¬∃ atlas, build (K := Float32) emptyMasks emptyLoader 4294967295 = .ok atlas := by
  have hbuild : build (K := Float32) emptyMasks emptyLoader 4294967295 =
      .error (.fault .sizeExceeded) := rfl
  refine ⟨rfl, hbuild, ?_⟩
  rintro ⟨atlas, hatlas⟩
  rw [hbuild] at hatlas
  cases hatlas

end Build

end MaskAtlas

end Penumbra
