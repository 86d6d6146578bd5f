import Mathlib.Data.List.Forall2
import Mathlib.Data.List.TakeWhile
import Mathlib.Tactic.IntervalCases
import Penumbra.Color
import Penumbra.Numeric.Single

/-!
# Hexadecimal colours

The text of a colour is any number of number signs followed by three or four pairs of characters,
with blanks around.  A pair is read as any number to base sixteen is: it may be a plus sign and one
digit as well as two digits.

**Results**

* `hexDigit?_eq_some_iff`: the digits of either case.
* `trim_parts`, `trim_eq_of_parts`: what is left without the blanks at both ends.
* `DigitPair`, `BytePair`, `Spells`: what a text has to look like.
* `readBytes?_eq_some_iff`, `ofHex?_eq`: reading the pairs one by one.
* `ofHex?_toLower`: case does not matter.
* `ofHex?_spells`: which texts are colours.
-/

namespace Penumbra

open Text

section Digits

/-- The digits to base sixteen, in the order of their values. -/
def lowerDigits : List Char :=
  ['0', '1', '2', '3', '4', '5', '6', '7', '8', '9', 'a', 'b', 'c', 'd', 'e', 'f']

def upperDigits : List Char :=
  ['0', '1', '2', '3', '4', '5', '6', '7', '8', '9', 'A', 'B', 'C', 'D', 'E', 'F']

/-- A character is the digit of a value, in either case. -/
def IsDigit (c : Char) (n : Nat) : Prop := lowerDigits[n]? = some c ∨ upperDigits[n]? = some c

instance (c : Char) (n : Nat) : Decidable (IsDigit c n) := inferInstanceAs (Decidable (_ ∨ _))

variable {c : Char} {n : Nat}

theorem IsDigit.lt (h : IsDigit c n) : n < 16 := by
  rcases h with h | h <;> exact (List.getElem?_eq_some_iff.mp h).1

theorem IsDigit.plain (h : IsDigit c n) :
    isBlank c = false ∧ c ≠ '#' ∧ Color.isAscii c = true := by
  have hlt := h.lt
  interval_cases n <;> rcases h with h | h <;> cases h <;> decide

/-- What holds of each character of ASCII and of all others holds of every character. -/
theorem forall_char {P : Char → Prop} (hascii : ∀ k < 128, P (Char.ofNat k))
    (hother : ∀ c : Char, 128 ≤ c.toNat → P c) (c : Char) : P c := by
  by_cases h : c.toNat < 128
  · rw [← Char.ofNat_toNat c]
    exact hascii c.toNat h
  · exact hother c (not_lt.mp h)

theorem not_le_of_ascii (h : 128 ≤ c.toNat) {d : Char} (hd : d.toNat < 128) : ¬c ≤ d := by
  intro hle
  have hvalue : c.toNat ≤ d.toNat := hle
  omega

theorem hexDigit?_eq_none (h : 128 ≤ c.toNat) : hexDigit? c = none := by
  have hdigit : c.isDigit = false := by
    rw [Char.isDigit, Bool.and_eq_false_iff, decide_eq_false_iff_not, decide_eq_false_iff_not]
    exact Or.inr (not_le_of_ascii h (d := '9') (by decide))
  have hlower : ¬c ≤ 'f' := not_le_of_ascii h (by decide)
  have hupper : ¬c ≤ 'F' := not_le_of_ascii h (by decide)
  simp [hexDigit?, hdigit, hlower, hupper]

theorem hexDigit?_eq_some_iff : hexDigit? c = some n ↔ IsDigit c n := by
  constructor
  · refine forall_char (P := fun c => hexDigit? c = some n → IsDigit c n) ?_ ?_ c
    · have htable : ∀ k < 128, ∀ value ∈ hexDigit? (Char.ofNat k),
          IsDigit (Char.ofNat k) value := by
        decide +kernel
      exact fun k hk => htable k hk n
    · intro c hc h
      rw [hexDigit?_eq_none hc] at h
      cases h
  · intro h
    have hlt := h.lt
    interval_cases n <;> rcases h with h | h <;> cases h <;> rfl

theorem toLower_eq_self (h : 128 ≤ c.toNat) : c.toLower = c :=
  dif_neg fun hupper => not_le_of_ascii h (d := 'Z') (by decide) hupper.2

/-- Case matters neither to digits nor to blanks, and signs have none. -/
theorem toLower_same (c : Char) :
    hexDigit? c.toLower = hexDigit? c ∧ isBlank c.toLower = isBlank c ∧
      Color.isAscii c.toLower = Color.isAscii c ∧ (c.toLower = '#' ↔ c = '#') ∧
      (c.toLower = '+' ↔ c = '+') := by
  revert c
  refine forall_char (by decide +kernel) ?_
  intro c hc
  simp [toLower_eq_self hc]

end Digits

section Blanks

variable {before after t : List Char}

/-- A text is what is left without blanks at both ends, with these around. -/
theorem trim_parts (s : List Char) : ∃ before after, s = before ++ trim s ++ after ∧
    (∀ c ∈ before, isBlank c = true) ∧ ∀ c ∈ after, isBlank c = true := by
  let rest := s.dropWhile isBlank
  refine ⟨s.takeWhile isBlank, (rest.reverse.takeWhile isBlank).reverse, ?_, ?_, ?_⟩
  · rw [List.append_assoc, trim, trimEnd, ← List.reverse_append, List.takeWhile_append_dropWhile,
      List.reverse_reverse, List.takeWhile_append_dropWhile]
  · exact fun c => List.mem_takeWhile_imp
  · intro c hc
    exact List.mem_takeWhile_imp (List.mem_reverse.mp hc)

theorem dropWhile_append {p : Char → Bool} {front rest : List Char}
    (hfront : ∀ c ∈ front, p c = true) (hrest : ∀ c ∈ rest.head?, p c = false) :
    (front ++ rest).dropWhile p = rest := by
  rw [List.dropWhile_append_of_pos hfront]
  cases rest with
  | nil =>
      rfl
  | cons c rest =>
      exact List.dropWhile_cons_of_neg (by simp [hrest c rfl])

/-- Blanks around a text without any are left out. -/
theorem trim_eq_of_parts (hbefore : ∀ c ∈ before, isBlank c = true)
    (hafter : ∀ c ∈ after, isBlank c = true) (hne : t ≠ []) (ht : ∀ c ∈ t, isBlank c = false) :
    trim (before ++ t ++ after) = t := by
  have hfront : (before ++ t ++ after).dropWhile isBlank = t ++ after := by
    rw [List.append_assoc]
    refine dropWhile_append hbefore ?_
    rw [List.head?_append, List.head?_eq_some_head hne]
    exact fun c hc => ht c (Option.some.inj hc ▸ List.head_mem hne)
  have hback : (t ++ after).reverse.dropWhile isBlank = t.reverse := by
    rw [List.reverse_append]
    refine dropWhile_append (fun c hc => hafter c (List.mem_reverse.mp hc)) ?_
    exact fun c hc => ht c (List.mem_reverse.mp (List.mem_of_head? hc))
  rw [trim, hfront, trimEnd, hback, List.reverse_reverse]

theorem trim_toLower (s : List Char) : trim (s.map Char.toLower) = (trim s).map Char.toLower := by
  have hblank : isBlank ∘ Char.toLower = isBlank := funext fun c => (toLower_same c).2.1
  simp only [trim, trimEnd, List.dropWhile_map, hblank, ← List.map_reverse]

end Blanks

section Pairs

/-- Two digits spell a byte. -/
inductive DigitPair : List Char → Nat → Prop
  | digits {c d m n} (first : IsDigit c m) (second : IsDigit d n) : DigitPair [c, d] (16 * m + n)

/-- What is read as a byte: two digits, or a plus sign and one digit. -/
inductive BytePair : List Char → Nat → Prop
  | digits {pair byte} (h : DigitPair pair byte) : BytePair pair byte
  | sign {d n} (second : IsDigit d n) : BytePair ['+', d] n

theorem readHexByte?_pair (c d : Char) : readHexByte? [c, d] =
    if c = '+' then hexDigit? d
    else (hexDigit? c).bind fun m => (hexDigit? d).map fun n => 16 * m + n := by
  by_cases hplus : c = '+'
  · subst hplus
    cases hd : hexDigit? d with
    | none =>
        simp [readHexByte?, readHex?, hexDigits?, hd]
    | some n =>
        have hn := (hexDigit?_eq_some_iff.mp hd).lt
        simp [readHexByte?, readHex?, hexDigits?, hd]
        omega
  · have hread : readHex? [c, d] = hexDigits? 0 [c, d] := by
      unfold readHex?
      split <;> simp_all
    cases hc : hexDigit? c with
    | none =>
        simp [readHexByte?, hread, hexDigits?, hc, hplus]
    | some m =>
        cases hd : hexDigit? d with
        | none =>
            simp [readHexByte?, hread, hexDigits?, hc, hd, hplus]
        | some n =>
            have hm := (hexDigit?_eq_some_iff.mp hc).lt
            have hn := (hexDigit?_eq_some_iff.mp hd).lt
            have hbyte : m * 16 + n < 256 := by
              omega
            simp [readHexByte?, hread, hexDigits?, hc, hd, hplus, hbyte, Nat.mul_comm]

theorem readHexByte?_eq_some_iff {c d : Char} {byte : Nat} :
    readHexByte? [c, d] = some byte ↔ BytePair [c, d] byte := by
  rw [readHexByte?_pair]
  constructor
  · intro h
    split_ifs at h with hplus
    · subst hplus
      exact .sign (hexDigit?_eq_some_iff.mp h)
    · obtain ⟨m, hm, hrest⟩ := Option.bind_eq_some_iff.mp h
      obtain ⟨n, hn, rfl⟩ := Option.map_eq_some_iff.mp hrest
      exact .digits (.digits (hexDigit?_eq_some_iff.mp hm) (hexDigit?_eq_some_iff.mp hn))
  · intro h
    cases h with
    | digits hpair =>
        obtain @⟨_, _, m, n, hc, hd⟩ := hpair
        have hplus : c ≠ '+' := by
          rintro rfl
          have hnone := hexDigit?_eq_some_iff.mpr hc
          cases hnone
        rw [if_neg hplus, hexDigit?_eq_some_iff.mpr hc, hexDigit?_eq_some_iff.mpr hd]
        rfl
    | sign hd =>
        rw [if_pos rfl]
        exact hexDigit?_eq_some_iff.mpr hd

theorem BytePair.exists_eq {pair : List Char} {byte : Nat} (h : BytePair pair byte) :
    ∃ c d, pair = [c, d] := by
  rcases h with ⟨⟨_, _⟩⟩ | ⟨_⟩ <;> exact ⟨_, _, rfl⟩

/-- The bytes that the pairs of a text spell, one after the other. -/
def readBytes? : List Char → Option (List Nat)
  | [] => some []
  | [_] => none
  | c :: d :: rest => do return (← readHexByte? [c, d]) :: (← readBytes? rest)

theorem readBytes?_eq_some_iff {body : List Char} {bytes : List Nat} :
    readBytes? body = some bytes ↔
      ∃ pairs, body = pairs.flatten ∧ List.Forall₂ BytePair pairs bytes := by
  constructor
  · intro h
    induction body using readBytes?.induct generalizing bytes with
    | case1 =>
        cases h
        exact ⟨[], rfl, .nil⟩
    | case2 c =>
        cases h
    | case3 c d rest ih =>
        simp only [readBytes?, Option.bind_eq_bind, Option.bind_eq_some_iff, Option.pure_def,
          Option.some.injEq] at h
        obtain ⟨byte, hbyte, later, hlater, rfl⟩ := h
        obtain ⟨pairs, rfl, hpairs⟩ := ih hlater
        exact ⟨[c, d] :: pairs, rfl, .cons (readHexByte?_eq_some_iff.mp hbyte) hpairs⟩
  · rintro ⟨pairs, rfl, hpairs⟩
    induction hpairs with
    | nil =>
        rfl
    | @cons pair byte pairs later hpair _ ih =>
        obtain ⟨c, d, rfl⟩ := hpair.exists_eq
        rw [List.flatten_cons, List.cons_append, List.singleton_append, readBytes?,
          readHexByte?_eq_some_iff.mpr hpair, ih]
        rfl

variable {pairs : List (List Char)} {bytes : List Nat}

theorem length_flatten (h : List.Forall₂ BytePair pairs bytes) :
    pairs.flatten.length = 2 * bytes.length := by
  induction h with
  | nil =>
      rfl
  | cons hpair _ ih =>
      obtain ⟨c, d, rfl⟩ := hpair.exists_eq
      simp only [List.flatten_cons, List.length_append, List.length_cons, List.length_nil, ih]
      omega

theorem readBytes?_toLower (body : List Char) :
    readBytes? (body.map Char.toLower) = readBytes? body := by
  induction body using readBytes?.induct with
  | case1 =>
      rfl
  | case2 c =>
      rfl
  | case3 c d rest ih =>
      have hpair : readHexByte? [c.toLower, d.toLower] = readHexByte? [c, d] := by
        simp only [readHexByte?_pair, (toLower_same c).1, (toLower_same d).1,
          (toLower_same c).2.2.2.2]
      rw [List.map_cons, List.map_cons, readBytes?, readBytes?, hpair, ih]

/-- What pairs are made of. -/
theorem BytePair.mem {pair : List Char} {byte : Nat} (h : BytePair pair byte) :
    ∀ c ∈ pair, c = '+' ∨ ∃ n, IsDigit c n := by
  rcases h with ⟨⟨hfirst, hsecond⟩⟩ | ⟨hsecond⟩ <;>
    rw [List.forall_mem_cons, List.forall_mem_singleton]
  · exact ⟨Or.inr ⟨_, hfirst⟩, Or.inr ⟨_, hsecond⟩⟩
  · exact ⟨Or.inl rfl, Or.inr ⟨_, hsecond⟩⟩

theorem mem_of_bytePairs (h : List.Forall₂ BytePair pairs bytes) :
    ∀ c ∈ pairs.flatten, c = '+' ∨ ∃ n, IsDigit c n := by
  induction h with
  | nil =>
      simp
  | cons hpair _ ih =>
      rw [List.flatten_cons, List.forall_mem_append]
      exact ⟨hpair.mem, ih⟩

/-- Signs and digits are no blanks, no number signs, and of ASCII. -/
theorem plain_of_bytePairs (h : List.Forall₂ BytePair pairs bytes) {c : Char}
    (hc : c ∈ pairs.flatten) : isBlank c = false ∧ c ≠ '#' ∧ Color.isAscii c = true := by
  rcases mem_of_bytePairs h c hc with rfl | ⟨n, hn⟩
  · decide
  · exact hn.plain

/-- Without signs all pairs are two digits. -/
theorem digitPairs_of_bytePairs (h : List.Forall₂ BytePair pairs bytes)
    (hplus : '+' ∉ pairs.flatten) : List.Forall₂ DigitPair pairs bytes := by
  induction h with
  | nil =>
      exact .nil
  | cons hpair _ ih =>
      rw [List.flatten_cons, List.mem_append, not_or] at hplus
      cases hpair with
      | digits hdigits =>
          exact .cons hdigits (ih hplus.2)
      | sign _ =>
          exact absurd List.mem_cons_self hplus.1

/-- An even number of digits can be read in pairs. -/
theorem exists_digitPairs {body : List Char} {k : Nat} (hlength : body.length = 2 * k)
    (hdigits : ∀ c ∈ body, ∃ n, IsDigit c n) :
    ∃ pairs bytes, body = pairs.flatten ∧ List.Forall₂ DigitPair pairs bytes ∧
      bytes.length = k := by
  induction k generalizing body with
  | zero =>
      rw [List.length_eq_zero_iff.mp hlength]
      exact ⟨[], [], rfl, .nil, rfl⟩
  | succ k ih =>
      obtain ⟨c, rest, rfl⟩ := List.exists_cons_of_length_pos (l := body) (by omega)
      obtain ⟨d, rest, rfl⟩ := List.exists_cons_of_length_pos (l := rest) (by
        rw [List.length_cons] at hlength
        omega)
      obtain ⟨m, hm⟩ := hdigits c List.mem_cons_self
      obtain ⟨n, hn⟩ := hdigits d (List.mem_cons_of_mem _ List.mem_cons_self)
      have hrest : rest.length = 2 * k := by
        rw [List.length_cons, List.length_cons] at hlength
        omega
      obtain ⟨pairs, bytes, rfl, hpairs, rfl⟩ := ih hrest
        fun e he => hdigits e (List.mem_cons_of_mem _ (List.mem_cons_of_mem _ he))
      exact ⟨[c, d] :: pairs, (16 * m + n) :: bytes, rfl, .cons (.digits hm hn) hpairs, rfl⟩

end Pairs

section Texts

/-- What is left of a text without the blanks at both ends and the number signs in front. -/
def hexBody (s : List Char) : List Char := (trim s).dropWhile (· = '#')

/-- A text spells bytes when it is number signs and then a pair for each byte, with blanks at both
ends. -/
def Spells (Pair : List Char → Nat → Prop) (s : List Char) (bytes : List Nat) : Prop :=
  ∃ before marks pairs after, s = before ++ marks ++ pairs.flatten ++ after ∧
    (∀ c ∈ before, isBlank c = true) ∧ (∀ c ∈ marks, c = '#') ∧
    List.Forall₂ Pair pairs bytes ∧ ∀ c ∈ after, isBlank c = true

variable {Pair : List Char → Nat → Prop} {s : List Char} {bytes : List Nat}

theorem hexBody_toLower (s : List Char) :
    hexBody (s.map Char.toLower) = (hexBody s).map Char.toLower := by
  have hmark : (fun c : Char => decide (c = '#')) ∘ Char.toLower = fun c => decide (c = '#') :=
    funext fun c => decide_eq_decide.mpr (toLower_same c).2.2.2.1
  rw [hexBody, trim_toLower, List.dropWhile_map, hmark, hexBody]

/-- The pairs of a text are what is left without blanks and number signs. -/
theorem spells_iff (hpair : ∀ pair byte, Pair pair byte → BytePair pair byte) (hne : bytes ≠ []) :
    Spells Pair s bytes ↔ ∃ pairs, hexBody s = pairs.flatten ∧ List.Forall₂ Pair pairs bytes := by
  constructor
  · rintro ⟨before, marks, pairs, after, rfl, hbefore, hmarks, hpairs, hafter⟩
    have hplain := fun c => plain_of_bytePairs (c := c) (hpairs.imp hpair)
    refine ⟨pairs, ?_, hpairs⟩
    have hflatten : pairs.flatten ≠ [] := by
      rw [← List.length_pos_iff, length_flatten (hpairs.imp hpair)]
      have hpos := List.length_pos_iff.mpr hne
      omega
    have htrim : trim (before ++ (marks ++ pairs.flatten) ++ after) = marks ++ pairs.flatten := by
      refine trim_eq_of_parts hbefore hafter (List.append_ne_nil_of_right_ne_nil _ hflatten) ?_
      intro c hc
      rcases List.mem_append.mp hc with hmark | hbody
      · rw [hmarks c hmark]
        decide
      · exact (hplain c hbody).1
    rw [hexBody, List.append_assoc before, htrim]
    refine dropWhile_append (fun c hc => decide_eq_true (hmarks c hc)) ?_
    exact fun c hc => decide_eq_false (hplain c (List.mem_of_head? hc)).2.1
  · rintro ⟨pairs, hbody, hpairs⟩
    obtain ⟨before, after, hs, hbefore, hafter⟩ := trim_parts s
    refine ⟨before, (trim s).takeWhile (· = '#'), pairs, after, ?_, hbefore, ?_, hpairs, hafter⟩
    · rw [← hbody, hexBody, List.append_assoc before, List.takeWhile_append_dropWhile]
      exact hs
    · exact fun c hc => of_decide_eq_true (List.mem_takeWhile_imp (p := fun c => c = '#') hc)

/-- Without signs, what spells bytes are pairs of digits. -/
theorem spells_digitPair_iff {s : List Char} {bytes : List Nat} (hplus : '+' ∉ hexBody s)
    (hne : bytes ≠ []) : Spells BytePair s bytes ↔ Spells DigitPair s bytes := by
  rw [spells_iff (fun _ _ h => h) hne, spells_iff (fun _ _ h => .digits h) hne]
  constructor
  · rintro ⟨pairs, hbody, hpairs⟩
    exact ⟨pairs, hbody, digitPairs_of_bytePairs hpairs (hbody ▸ hplus)⟩
  · rintro ⟨pairs, hbody, hpairs⟩
    exact ⟨pairs, hbody, hpairs.imp fun _ _ h => .digits h⟩

/-- Three or four pairs of digits are six or eight digits. -/
theorem exists_spells_digitPair_iff {s : List Char} (hplus : '+' ∉ hexBody s) :
    (∃ bytes, Spells DigitPair s bytes ∧ (bytes.length = 3 ∨ bytes.length = 4)) ↔
      ((hexBody s).length = 6 ∨ (hexBody s).length = 8) ∧
        ∀ c ∈ hexBody s, ∃ n, IsDigit c n := by
  have hspells {bytes : List Nat} (hlength : bytes.length = 3 ∨ bytes.length = 4) :
      Spells DigitPair s bytes ↔
        ∃ pairs, hexBody s = pairs.flatten ∧ List.Forall₂ DigitPair pairs bytes := by
    refine spells_iff (fun _ _ h => .digits h) (List.ne_nil_of_length_pos ?_)
    omega
  constructor
  · rintro ⟨bytes, hbytes, hlength⟩
    obtain ⟨pairs, hbody, hpairs⟩ := (hspells hlength).mp hbytes
    have hpairs := hpairs.imp fun _ _ h => BytePair.digits h
    have hcount := length_flatten hpairs
    rw [← hbody] at hcount
    refine ⟨by omega, ?_⟩
    intro c hc
    refine (mem_of_bytePairs hpairs c (hbody ▸ hc)).resolve_left ?_
    rintro rfl
    exact hplus hc
  · rintro ⟨hlength, hdigits⟩
    have heven : (hexBody s).length = 2 * ((hexBody s).length / 2) := by
      omega
    obtain ⟨pairs, bytes, hbody, hpairs, hcount⟩ := exists_digitPairs heven hdigits
    have hbytes : bytes.length = 3 ∨ bytes.length = 4 := by
      omega
    exact ⟨bytes, (hspells hbytes).mpr ⟨pairs, hbody, hpairs⟩, hbytes⟩

end Texts

namespace Color

variable {K : Type} [Scalar K]

/-- The colour whose channels are given as numbers of 255ths; one of three channels is opaque. -/
def ofBytes? : List Nat → Option (Color K)
  | [r, g, b] =>
    some ⟨Scalar.ofNat r / 255.0, Scalar.ofNat g / 255.0, Scalar.ofNat b / 255.0, 1.0⟩
  | [r, g, b, a] =>
    some ⟨Scalar.ofNat r / 255.0, Scalar.ofNat g / 255.0, Scalar.ofNat b / 255.0,
      Scalar.ofNat a / 255.0⟩
  | _ => none

theorem exists_ofBytes?_iff {bytes : List Nat} :
    (∃ color : Color K, ofBytes? bytes = some color) ↔ bytes.length = 3 ∨ bytes.length = 4 := by
  constructor
  · rintro ⟨color, h⟩
    unfold ofBytes? at h
    split at h
    · exact Or.inl rfl
    · exact Or.inr rfl
    · cases h
  · intro h
    match bytes, h with
    | [_, _, _], _ => exact ⟨_, rfl⟩
    | [_, _, _, _], _ => exact ⟨_, rfl⟩

/-- The text of a colour is read pair by pair. -/
theorem ofHex?_eq (s : String) : (ofHex? s : Option (Color K)) =
    if (hexBody s.toList).all isAscii then (readBytes? (hexBody s.toList)).bind ofBytes?
    else none := by
  rw [ofHex?, ← hexBody]
  split_ifs with hascii
  · generalize hexBody s.toList = digits
    split
    · next r₁ r₂ g₁ g₂ b₁ b₂ =>
        simp only [channel?, readBytes?]
        cases readHexByte? [r₁, r₂] <;> cases readHexByte? [g₁, g₂] <;>
          cases readHexByte? [b₁, b₂] <;> rfl
    · next r₁ r₂ g₁ g₂ b₁ b₂ a₁ a₂ =>
        simp only [channel?, readBytes?]
        cases readHexByte? [r₁, r₂] <;> cases readHexByte? [g₁, g₂] <;>
          cases readHexByte? [b₁, b₂] <;> cases readHexByte? [a₁, a₂] <;> rfl
    · next hsix height =>
        -- Neither six nor eight characters, so there are neither three nor four pairs.
        rw [eq_comm, Option.bind_eq_none_iff]
        intro bytes hbytes
        obtain ⟨pairs, rfl, hpairs⟩ := readBytes?_eq_some_iff.mp hbytes
        rw [Option.eq_none_iff_forall_ne_some]
        intro color hcolor
        have hlength := length_flatten hpairs
        rcases exists_ofBytes?_iff.mp ⟨color, hcolor⟩ with hthree | hfour
        · rw [hthree] at hlength
          match pairs.flatten, hlength, hsix with
          | [r₁, r₂, g₁, g₂, b₁, b₂], _, hsix => exact hsix r₁ r₂ g₁ g₂ b₁ b₂ rfl
        · rw [hfour] at hlength
          match pairs.flatten, hlength, height with
          | [r₁, r₂, g₁, g₂, b₁, b₂, a₁, a₂], _, height =>
            exact height r₁ r₂ g₁ g₂ b₁ b₂ a₁ a₂ rfl
  · rfl

/-- A text is a colour when its pairs spell three or four bytes. -/
theorem ofHex?_eq_some_iff {s : String} {color : Color K} : ofHex? s = some color ↔
    ∃ bytes, Spells BytePair s.toList bytes ∧ ofBytes? bytes = some color := by
  have hspells {bytes : List Nat} (hcolor : ofBytes? bytes = some color) :
      Spells BytePair s.toList bytes ↔
        ∃ pairs, hexBody s.toList = pairs.flatten ∧ List.Forall₂ BytePair pairs bytes := by
    refine spells_iff (fun _ _ h => h) ?_
    rintro rfl
    cases hcolor
  rw [ofHex?_eq]
  constructor
  · intro h
    split_ifs at h
    obtain ⟨bytes, hbytes, hcolor⟩ := Option.bind_eq_some_iff.mp h
    exact ⟨bytes, (hspells hcolor).mpr (readBytes?_eq_some_iff.mp hbytes), hcolor⟩
  · rintro ⟨bytes, hbytes, hcolor⟩
    obtain ⟨pairs, hbody, hpairs⟩ := (hspells hcolor).mp hbytes
    have hascii : (hexBody s.toList).all isAscii = true := by
      rw [hbody, List.all_eq_true]
      exact fun c hc => (plain_of_bytePairs hpairs hc).2.2
    rw [if_pos hascii, readBytes?_eq_some_iff.mpr ⟨pairs, hbody, hpairs⟩]
    exact hcolor

/-- Case does not matter. -/
theorem ofHex?_toLower (s : String) : (ofHex? s.toLower : Option (Color K)) = ofHex? s := by
  have hascii : isAscii ∘ Char.toLower = isAscii := funext fun c => (toLower_same c).2.2.1
  have htext : s.toLower.toList = s.toList.map Char.toLower := String.toList_map
  rw [ofHex?_eq, ofHex?_eq, htext, hexBody_toLower, readBytes?_toLower, List.all_map, hascii]

/--
Which texts are colours.  A text is a colour when number signs and three or four pairs are left
without the blanks at its ends, and each pair is two digits or a plus sign and a digit.  The values
of the pairs are the channels.  When there is no plus sign, this means that exactly six or eight
digits are left.  Texts that differ in case only are the same colour.
-/
theorem ofHex?_spells (s : String) :
    (∀ color : Color K, ofHex? s = some color ↔
      ∃ bytes, Spells BytePair s.toList bytes ∧ ofBytes? bytes = some color) ∧
    ('+' ∉ hexBody s.toList →
      ((ofHex? s : Option (Color K)).isSome = true ↔
        ((hexBody s.toList).length = 6 ∨ (hexBody s.toList).length = 8) ∧
          ∀ c ∈ hexBody s.toList, ∃ n, IsDigit c n) ∧
      ∀ color : Color K, ofHex? s = some color ↔
        ∃ bytes, Spells DigitPair s.toList bytes ∧ ofBytes? bytes = some color) ∧
    ∀ t : String, t.toLower = s.toLower → (ofHex? t : Option (Color K)) = ofHex? s := by
  refine ⟨fun color => ofHex?_eq_some_iff, ?_, ?_⟩
  · intro hplus
    have hdigits (color : Color K) : ofHex? s = some color ↔
        ∃ bytes, Spells DigitPair s.toList bytes ∧ ofBytes? bytes = some color := by
      rw [ofHex?_eq_some_iff]
      refine exists_congr fun bytes => and_congr_left fun hcolor => spells_digitPair_iff hplus ?_
      rintro rfl
      cases hcolor
    refine ⟨?_, hdigits⟩
    rw [Option.isSome_iff_exists, ← exists_spells_digitPair_iff hplus]
    simp only [hdigits, ← exists_ofBytes?_iff (K := K)]
    constructor
    · rintro ⟨color, bytes, hbytes, hcolor⟩
      exact ⟨bytes, hbytes, color, hcolor⟩
    · rintro ⟨bytes, hbytes, color, hcolor⟩
      exact ⟨color, bytes, hbytes, hcolor⟩
  · intro t ht
    rw [← ofHex?_toLower, ht, ofHex?_toLower]

/-- Each channel of this text is a plus sign and a digit. -/
theorem ofHex?_signs :
    ofHex? "+1+2+3" = some (⟨1.0 / 255.0, 2.0 / 255.0, 3.0 / 255.0, 1.0⟩ : Color Float32) ∧
    '+' ∈ hexBody "+1+2+3".toList ∧ ∀ n, ¬IsDigit '+' n := by
  refine ⟨rfl, by decide +kernel, ?_⟩
  intro n h
  have hdigit := hexDigit?_eq_some_iff.mpr h
  cases hdigit

end Color

end Penumbra
