import Penumbra.Json.Printer
import Penumbra.Json.Reader
import Penumbra.Proofs.Json.Numerals

/-!
# Literals that are read back

The reader takes off the front of a text exactly the numeral or the string that was written there.
A numeral ends where a character follows that cannot go on with it; a string ends with its quote.

**Results**

* `Json.readNumeral?_numeralChars`: a legal numeral, with what follows it.
* `Json.readText?_textChars`: any text, with its quotes, backslashes and control characters.
-/

namespace Penumbra.Json

/-- The first character, if there is one, is none of some kind. -/
def StartsOutside (p : Char → Bool) : List Char → Prop
  | [] => True
  | c :: _ => p c = false

section Digits

variable {ds : List Digit} {rest : List Char}

theorem digit?_digitChar (d : Digit) : digit? (digitChar d) = some d := by
  revert d
  decide

theorem isDigit_digitChar (d : Digit) : (digitChar d).isDigit = true := by
  revert d
  decide

theorem digitChar_ne_zero : ∀ d : Digit, d ≠ Digit.zero → digitChar d ≠ '0' := by
  decide

theorem digit?_eq_none {c : Char} (h : c.isDigit = false) : digit? c = none := by
  simp [digit?, h]

theorem readDigits_append (ds : List Digit) (hrest : StartsOutside Char.isDigit rest) :
    readDigits (digitChars ds ++ rest) = (ds, rest) := by
  induction ds with
  | nil =>
      cases rest with
      | nil => rfl
      | cons c r =>
          change readDigits (c :: r) = _
          rw [readDigits, digit?_eq_none hrest]
  | cons d ds ih =>
      have hcons : digitChars (d :: ds) ++ rest = digitChar d :: (digitChars ds ++ rest) := rfl
      rw [hcons, readDigits, digit?_digitChar]
      simp only [ih]

theorem readDigits₁?_append (hds : ds ≠ []) (hrest : StartsOutside Char.isDigit rest) :
    readDigits₁? (digitChars ds ++ rest) = some (ds, rest) := by
  rw [readDigits₁?, readDigits_append ds hrest]
  cases ds with
  | nil => exact absurd rfl hds
  | cons d ds => rfl

theorem readWhole?_append (hds : Numeral.Unpadded ds) (hrest : StartsOutside Char.isDigit rest) :
    readWhole? (digitChars ds ++ rest) = some (ds, rest) := by
  rcases hds with rfl | ⟨d, es, rfl, hd⟩
  · rfl
  · have hfirst : ∀ r, digitChars (d :: es) ++ rest ≠ '0' :: r := fun r heq =>
      digitChar_ne_zero d hd (List.cons.inj heq).1
    rw [readWhole?]
    · exact readDigits₁?_append (List.cons_ne_nil d es) hrest
    · exact hfirst

end Digits

section Numerals

/-- Characters that a numeral may go on with. -/
def goesOn (c : Char) : Bool := c.isDigit || c = '.' || c = 'e' || c = 'E'

variable {rest : List Char}

theorem StartsOutside.of_goesOn {p : Char → Bool} (h : StartsOutside goesOn rest)
    (hp : ∀ c, goesOn c = false → p c = false) : StartsOutside p rest := by
  cases rest with
  | nil => trivial
  | cons c r => exact hp c h

theorem readFraction?_append (ds : List Digit) (hdigit : StartsOutside Char.isDigit rest)
    (hpoint : StartsOutside (· = '.') rest) :
    readFraction? ((if ds.isEmpty then [] else '.' :: digitChars ds) ++ rest) =
      some (ds, rest) := by
  cases ds with
  | nil =>
      rw [List.isEmpty_nil, if_pos rfl, List.nil_append, readFraction?]
      rintro r rfl
      simp [StartsOutside] at hpoint
  | cons d ds => exact readDigits₁?_append (List.cons_ne_nil d ds) hdigit

theorem digitsOf_ne_nil (n : Nat) : Numeral.digitsOf n ≠ [] := by
  rcases Numeral.unpadded_digitsOf n with h | ⟨d, es, h, -⟩ <;> simp [h]

theorem readExponent?_append (e : Option Int) (hrest : StartsOutside goesOn rest) :
    readExponent? (exponentChars e ++ rest) = some (e, rest) := by
  have hdigit : StartsOutside Char.isDigit rest := hrest.of_goesOn fun c hc => by
    simp only [goesOn, Bool.or_eq_false_iff] at hc
    exact hc.1.1.1
  cases e with
  | none =>
      rw [exponentChars, List.nil_append, readExponent?]
      · rintro r rfl
        simp [StartsOutside, goesOn] at hrest
      · rintro r rfl
        simp [StartsOutside, goesOn] at hrest
  | some e =>
      have hread := readDigits₁?_append (digitsOf_ne_nil e.natAbs) hdigit
      simp only [exponentChars]
      split_ifs with hsign
      · simp [readExponent?, readSigned?, hread, abs_of_neg hsign]
      · simp [readExponent?, readSigned?, hread, not_lt.mp hsign]

theorem startsOutside_exponentChars {p : Char → Bool} (e : Option Int) (hmark : p 'e' = false)
    (hrest : StartsOutside p rest) : StartsOutside p (exponentChars e ++ rest) := by
  cases e with
  | none => exact hrest
  | some e => exact hmark

theorem readUnsigned?_append {n : Numeral} (hn : n.Legal) (hrest : StartsOutside goesOn rest) :
    readUnsigned? n.negative (digitChars n.whole ++
      ((if n.fraction.isEmpty then [] else '.' :: digitChars n.fraction) ++
        (exponentChars n.exponent ++ rest))) = some (n, rest) := by
  have hdigit : StartsOutside Char.isDigit (exponentChars n.exponent ++ rest) :=
    startsOutside_exponentChars _ (by decide) (hrest.of_goesOn fun c hc => by
      simp only [goesOn, Bool.or_eq_false_iff] at hc
      exact hc.1.1.1)
  have hpoint : StartsOutside (· = '.') (exponentChars n.exponent ++ rest) :=
    startsOutside_exponentChars _ (by decide) (hrest.of_goesOn fun c hc => by
      simp only [goesOn, Bool.or_eq_false_iff] at hc
      exact hc.1.1.2)
  have hwhole : StartsOutside Char.isDigit
      ((if n.fraction.isEmpty then [] else '.' :: digitChars n.fraction) ++
        (exponentChars n.exponent ++ rest)) := by
    split_ifs
    · exact hdigit
    · exact (by decide : Char.isDigit '.' = false)
  rw [readUnsigned?, readWhole?_append hn hwhole]
  simp only [Option.bind_eq_bind, Option.bind_some, readFraction?_append _ hdigit hpoint,
    readExponent?_append _ hrest]
  rfl

theorem exists_wholeChars {n : Numeral} (hn : n.Legal) :
    ∃ c r, digitChars n.whole = c :: r ∧ c.isDigit = true := by
  rcases hn with h | ⟨d, ds, h, -⟩
  · exact ⟨_, _, by rw [h]; rfl, isDigit_digitChar Digit.zero⟩
  · exact ⟨_, _, by rw [h]; rfl, isDigit_digitChar d⟩

/-- The first character of a legal numeral. -/
theorem exists_numeralChars {n : Numeral} (hn : n.Legal) :
    ∃ c r, numeralChars n = c :: r ∧ (c = '-' ∨ c.isDigit = true) := by
  obtain ⟨c, r, hwhole, hc⟩ := exists_wholeChars hn
  rw [numeralChars, hwhole]
  cases n.negative with
  | true => exact ⟨_, _, rfl, Or.inl rfl⟩
  | false => exact ⟨_, _, rfl, Or.inr hc⟩

/-- A legal numeral is read as it was written, up to what follows. -/
theorem readNumeral?_numeralChars {n : Numeral} (hn : n.Legal) (hrest : StartsOutside goesOn rest) :
    readNumeral? (numeralChars n ++ rest) = some (n, rest) := by
  have hread := readUnsigned?_append hn hrest
  cases hsign : n.negative with
  | true =>
      rw [hsign] at hread
      simpa [numeralChars, hsign, readNumeral?] using hread
  | false =>
      obtain ⟨c, r, hwhole, hc⟩ := exists_wholeChars hn
      rw [hsign, hwhole] at hread
      have hfirst : c ≠ '-' := by
        rintro rfl
        exact absurd hc (by decide)
      rw [numeralChars, hsign, hwhole]
      simp only [Bool.false_eq_true, if_false, List.nil_append, List.append_assoc,
        List.cons_append] at hread ⊢
      rw [readNumeral?]
      · exact hread
      · exact fun _ heq => hfirst (List.cons.inj heq).1

end Numerals

section Texts

variable {rest : List Char}

/-- The escape of a control character that has no short one. -/
theorem unit?_hexChar : ∀ n < 32, unit? '0' '0' (Text.hexChar (n / 16)) (Text.hexChar (n % 16)) =
    some n := by
  decide

theorem readPieces?_short {e c : Char} (he : e ≠ 'u') (h : shortEscape? e = some c)
    (s : List Char) :
    readPieces? ('\\' :: e :: s) =
      (readPieces? s).map fun (pieces, rest) => (.char c :: pieces, rest) := by
  rw [readPieces?]
  · rw [h, Option.map_eq_bind]
    rfl
  · exact fun _ _ _ _ _ hu => absurd hu he

theorem readPieces?_control {c : Char} (hc : c.toNat < 0x20) (s : List Char) :
    readPieces? ('\\' :: 'u' :: '0' :: '0' :: Text.hexChar (c.toNat / 16) ::
        Text.hexChar (c.toNat % 16) :: s) =
      (readPieces? s).map fun (pieces, rest) => (.char c :: pieces, rest) := by
  have hpiece : Piece.ofUnit c.toNat = .char c := by
    have hsmall : ¬(0xD800 ≤ c.toNat ∧ c.toNat < 0xE000) := by
      omega
    simp [Piece.ofUnit, hsmall, Char.ofNat_toNat]
  rw [readPieces?, unit?_hexChar _ hc, Option.map_eq_bind]
  simp only [Option.bind_eq_bind, Option.bind_some, hpiece]
  rfl

theorem readPieces?_plain {c : Char} (hquote : c ≠ '"') (hslash : c ≠ '\\') (hc : ¬c.toNat < 0x20)
    (s : List Char) :
    readPieces? (c :: s) = (readPieces? s).map fun (pieces, rest) => (.char c :: pieces, rest) := by
  rw [readPieces?]
  · rw [if_neg hc, Option.map_eq_bind]
    rfl
  all_goals simp_all

/-- Whatever a character is written as, it is read as one piece. -/
theorem readPieces?_escapedChar (c : Char) (s : List Char) :
    readPieces? (escapedChar c ++ s) =
      (readPieces? s).map fun (pieces, rest) => (.char c :: pieces, rest) := by
  rw [escapedChar]
  split_ifs with hquote hslash hback htab hline hform hreturn hcontrol
  · subst hquote
    exact readPieces?_short (by decide) rfl s
  · subst hslash
    exact readPieces?_short (by decide) rfl s
  · exact hback ▸ readPieces?_short (by decide) rfl s
  · exact htab ▸ readPieces?_short (by decide) rfl s
  · exact hline ▸ readPieces?_short (by decide) rfl s
  · exact hform ▸ readPieces?_short (by decide) rfl s
  · exact hreturn ▸ readPieces?_short (by decide) rfl s
  · exact readPieces?_control hcontrol s
  · exact readPieces?_plain hquote hslash hcontrol s

theorem readPieces?_flatMap (cs rest : List Char) :
    readPieces? (cs.flatMap escapedChar ++ '"' :: rest) = some (cs.map .char, rest) := by
  induction cs with
  | nil => rw [List.flatMap_nil, List.nil_append, readPieces?, List.map_nil]
  | cons c cs ih =>
      rw [List.flatMap_cons, List.append_assoc, readPieces?_escapedChar, ih]
      rfl

theorem joinPieces?_map_char (cs : List Char) : joinPieces? (cs.map .char) = some cs := by
  induction cs with
  | nil => rfl
  | cons c cs ih => rw [List.map_cons, joinPieces?, ih, Option.map_some]

/-- The characters of a text behind its opening quote. -/
def innerChars (text : String) : List Char := text.toList.flatMap escapedChar ++ ['"']

theorem textChars_some (text : String) : textChars (some text) = '"' :: innerChars text := rfl

/-- A text is read as it was written, up to what follows. -/
theorem readText?_innerChars (text : String) (rest : List Char) :
    readText? (innerChars text ++ rest) = some (some text, rest) := by
  rw [innerChars, List.append_assoc, List.singleton_append, readText?, readPieces?_flatMap]
  simp only [Option.bind_eq_bind, Option.bind_some, joinPieces?_map_char, Option.map_some,
    String.ofList_toList]
  rfl

end Texts

end Penumbra.Json
