import Penumbra.Json.Record
import Penumbra.Proofs.Json.Literals

/-!
# Values that are read back

Whatever the style is that a value is written in, as long as it puts nothing but blanks between the
parts, the reader gets the value back from the text.  The fuel of the reader is enough because each
two levels of its recursion take a character of the text.

**Results**

* `Json.Legal`: values whose numerals are of the grammar and whose strings spell a text.
* `Json.readBack_of_legal`: such a value is read back from the front of a text.
* `Json.ofString?_pretty`: the text of a value spells the value.
-/

namespace Penumbra.Json

/-- Values that can be written: numerals of the grammar, and strings that spell a text. -/
inductive Legal : Json → Prop
  | null : Legal null
  | bool (b : Bool) : Legal (bool b)
  | number {n : Numeral} (h : n.Legal) : Legal (number n)
  | text (s : String) : Legal (ofText s)
  | array {items : List Json} (h : ∀ item ∈ items, Legal item) : Legal (array items)
  | object {members : List (String × Json)} (h : ∀ member ∈ members, Legal member.2) :
      Legal (ofMembers members)

/-- A style that puts nothing but blanks between the parts of a value. -/
structure Style.Blank (style : Style) : Prop where
  lineBreak : ∀ level, (style.lineBreak level).all isBlank = true
  colon : ∃ blanks : List Char, blanks.all isBlank = true ∧ style.colon = ':' :: blanks

theorem blank_prettyStyle : prettyStyle.Blank where
  lineBreak level := by
    simp [prettyStyle, isBlank]
  colon := ⟨[' '], rfl, rfl⟩

section Blanks

variable {blanks s : List Char} {c : Char}

theorem skipBlank_append (h : blanks.all isBlank = true) (s : List Char) :
    skipBlank (blanks ++ s) = skipBlank s :=
  List.dropWhile_append_of_pos (List.all_eq_true.mp h)

theorem skipBlank_cons (h : isBlank c = false) (s : List Char) : skipBlank (c :: s) = c :: s := by
  rw [skipBlank, List.dropWhile_cons_of_neg (by simp [h])]

theorem startsOutside_blanks (h : blanks.all isBlank = true) (hc : goesOn c = false)
    (s : List Char) : StartsOutside goesOn (blanks ++ c :: s) := by
  cases blanks with
  | nil => exact hc
  | cons b bs =>
      have hb : isBlank b = true := List.all_eq_true.mp h b List.mem_cons_self
      simp only [isBlank, Bool.or_eq_true, decide_eq_true_eq] at hb
      rcases hb with ((rfl | rfl) | rfl) | rfl <;> exact rfl

end Blanks

section Steps

variable {fuel : Nat} {c : Char} {r s t rest : List Char}

theorem readValue?_numeral {n : Numeral} (hn : n.Legal) (hrest : StartsOutside goesOn rest)
    (fuel : Nat) : readValue? (fuel + 1) (numeralChars n ++ rest) = some (number n, rest) := by
  have hread := readNumeral?_numeralChars hn hrest
  obtain ⟨c, r, hchars, hc⟩ := exists_numeralChars hn
  have hfirst : c ≠ 'n' ∧ c ≠ 't' ∧ c ≠ 'f' ∧ c ≠ '"' ∧ c ≠ '[' ∧ c ≠ '{' := by
    refine ⟨?_, ?_, ?_, ?_, ?_, ?_⟩ <;> rintro rfl <;> revert hc <;> decide
  obtain ⟨hn, ht, hf, hquote, hbracket, hbrace⟩ := hfirst
  rw [hchars, List.cons_append] at hread ⊢
  rw [readValue?, hread, Option.map_some]
  · exact fun _ heq => hn (List.cons.inj heq).1
  · exact fun _ heq => ht (List.cons.inj heq).1
  · exact fun _ heq => hf (List.cons.inj heq).1
  · exact fun _ heq => hquote (List.cons.inj heq).1
  · exact fun _ heq => hbracket (List.cons.inj heq).1
  · exact fun _ heq => hbrace (List.cons.inj heq).1

theorem readValue?_text (text : String) (rest : List Char) (fuel : Nat) :
    readValue? (fuel + 1) (textChars (some text) ++ rest) = some (string (some text), rest) := by
  rw [textChars_some, List.cons_append, readValue?, readText?_innerChars, Option.map_some]

theorem readValue?_array (h : ∀ t, skipBlank r ≠ ']' :: t) :
    readValue? (fuel + 1) ('[' :: r) =
      (readItems? fuel (skipBlank r)).map fun (items, rest) => (array items, rest) := by
  rw [readValue?]
  split
  · exact absurd ‹_› (h _)
  · rfl

theorem readValue?_object (h : ∀ t, skipBlank r ≠ '}' :: t) :
    readValue? (fuel + 1) ('{' :: r) =
      (readMembers? fuel (skipBlank r)).map fun (members, rest) => (object members, rest) := by
  rw [readValue?]
  split
  · exact absurd ‹_› (h _)
  · rfl

theorem readItems?_last {item : Json} (h : readValue? fuel s = some (item, r))
    (hend : skipBlank r = ']' :: rest) : readItems? (fuel + 1) s = some ([item], rest) := by
  rw [readItems?, h]
  simp only [Option.bind_eq_bind, Option.bind_some, hend]
  rfl

theorem readItems?_more {item : Json} {items : List Json}
    (h : readValue? fuel s = some (item, r)) (hcomma : skipBlank r = ',' :: t)
    (hmore : readItems? fuel (skipBlank t) = some (items, rest)) :
    readItems? (fuel + 1) s = some (item :: items, rest) := by
  rw [readItems?, h]
  simp only [Option.bind_eq_bind, Option.bind_some, hcomma, hmore]
  rfl

/-- A member of an object at the front of a text: its name, a colon and its value. -/
def MemberRead (fuel : Nat) (s : List Char) (name : String) (value : Json) (r : List Char) : Prop :=
  ∃ t u, s = '"' :: (innerChars name ++ t) ∧ skipBlank t = ':' :: u ∧
    readValue? fuel (skipBlank u) = some (value, r)

theorem readMembers?_last {name : String} {value : Json} (h : MemberRead fuel s name value r)
    (hend : skipBlank r = '}' :: rest) :
    readMembers? (fuel + 1) s = some ([(some name, value)], rest) := by
  obtain ⟨t, u, rfl, hcolon, hvalue⟩ := h
  rw [readMembers?, readText?_innerChars]
  simp only [Option.bind_eq_bind, Option.bind_some, hcolon, hvalue, hend]
  rfl

theorem readMembers?_more {name : String} {value : Json} {members : List (Option String × Json)}
    (h : MemberRead fuel s name value r) (hcomma : skipBlank r = ',' :: t)
    (hmore : readMembers? fuel (skipBlank t) = some (members, rest)) :
    readMembers? (fuel + 1) s = some ((some name, value) :: members, rest) := by
  obtain ⟨t, u, rfl, hcolon, hvalue⟩ := h
  rw [readMembers?, readText?_innerChars]
  simp only [Option.bind_eq_bind, Option.bind_some, hcolon, hvalue, hcomma, hmore]
  rfl

end Steps

section Values

variable {style : Style} {level fuel : Nat} {blanks rest : List Char} {j : Json}

/-- The first character of a value is neither a blank nor the end of an array. -/
theorem exists_chars (style : Style) (level : Nat) (hj : j.Legal) :
    ∃ c r, chars style level j = c :: r ∧ isBlank c = false ∧ c ≠ ']' := by
  cases hj with
  | null => exact ⟨_, _, by rw [chars], by decide, by decide⟩
  | bool b => cases b <;> exact ⟨_, _, by rw [chars], by decide, by decide⟩
  | number hn =>
      obtain ⟨c, r, hchars, hc⟩ := exists_numeralChars hn
      refine ⟨c, r, by rw [chars, hchars], ?_, ?_⟩
      · rw [← Bool.not_eq_true]
        simp only [isBlank, Bool.or_eq_true, decide_eq_true_eq]
        rintro (((rfl | rfl) | rfl) | rfl) <;> revert hc <;> decide
      · rintro rfl
        revert hc
        decide
  | text s => exact ⟨_, _, by rw [ofText, chars, textChars], by decide, by decide⟩
  | @array items h =>
      cases items <;> exact ⟨_, _, by rw [chars], by decide, by decide⟩
  | @object members h =>
      cases members <;> exact ⟨_, _, by rw [ofMembers, List.map, chars], by decide, by decide⟩

theorem skipBlank_chars (hj : j.Legal) (s : List Char) :
    skipBlank (chars style level j ++ s) = chars style level j ++ s := by
  obtain ⟨c, r, hchars, hblank, -⟩ := exists_chars style level hj
  rw [hchars, List.cons_append, skipBlank_cons hblank]

theorem chars_append_ne (hj : j.Legal) (s t : List Char) :
    chars style level j ++ s ≠ ']' :: t := by
  obtain ⟨c, r, hchars, -, hc⟩ := exists_chars style level hj
  rw [hchars, List.cons_append]
  exact fun heq => hc (List.cons.inj heq).1

/-- The reader gets the value back from the front of a text, with what follows. -/
structure ReadBack (style : Style) (j : Json) : Prop where
  front : ∀ {level fuel : Nat} {rest : List Char}, StartsOutside goesOn rest →
    2 * (chars style level j).length ≤ fuel →
      readValue? fuel (chars style level j ++ rest) = some (j, rest)

/-- A value takes at least one character, so that there is fuel for the first step. -/
theorem ReadBack.of_step (hj : j.Legal)
    (h : ∀ {level fuel : Nat} {rest : List Char}, StartsOutside goesOn rest →
      2 * (chars style level j).length ≤ fuel + 1 →
        readValue? (fuel + 1) (chars style level j ++ rest) = some (j, rest)) :
    ReadBack style j := by
  refine ⟨fun {level fuel rest} hrest hfuel => ?_⟩
  obtain ⟨c, r, hchars, -⟩ := exists_chars style level hj
  have hlength : (chars style level j).length = r.length + 1 := by
    rw [hchars, List.length_cons]
  obtain ⟨fuel, rfl⟩ : ∃ f, fuel = f + 1 := ⟨fuel - 1, by omega⟩
  exact h hrest hfuel

section Items

theorem startsOutside_itemChars (style : Style) (level : Nat)
    (hblanks : blanks.all isBlank = true) (items : List Json) (rest : List Char) :
    StartsOutside goesOn (itemChars style level items ++ (blanks ++ ']' :: rest)) := by
  cases items with
  | nil =>
      rw [itemChars]
      exact startsOutside_blanks hblanks (by decide) rest
  | cons item items =>
      rw [itemChars]
      exact (by decide : goesOn ',' = false)

/-- The items of an array, up to the closing bracket. -/
theorem readItems?_chars (hstyle : style.Blank) (hblanks : blanks.all isBlank = true)
    (rest : List Char) {item : Json} {items : List Json}
    (hlegal : ∀ i ∈ item :: items, i.Legal) (hread : ∀ i ∈ item :: items, ReadBack style i)
    (hfuel : 2 * ((chars style level item).length + (itemChars style level items).length) + 3 ≤
      fuel) :
    readItems? fuel (chars style level item ++
      (itemChars style level items ++ (blanks ++ ']' :: rest))) = some (item :: items, rest) := by
  induction items generalizing item fuel with
  | nil =>
      obtain ⟨fuel, rfl⟩ : ∃ f, fuel = f + 1 := ⟨fuel - 1, by omega⟩
      refine readItems?_last ((hread item List.mem_cons_self).front
        (startsOutside_itemChars style level hblanks [] rest) (by omega)) ?_
      rw [itemChars, List.nil_append, skipBlank_append hblanks, skipBlank_cons (by decide)]
  | cons next items ih =>
      obtain ⟨fuel, rfl⟩ : ∃ f, fuel = f + 1 := ⟨fuel - 1, by omega⟩
      refine readItems?_more (t := style.lineBreak level ++ (chars style level next ++
        (itemChars style level items ++ (blanks ++ ']' :: rest))))
        ((hread item List.mem_cons_self).front
          (startsOutside_itemChars style level hblanks (next :: items) rest) (by omega)) ?_ ?_
      · rw [itemChars, List.cons_append, skipBlank_cons (by decide)]
        simp only [List.append_assoc]
      · have hnext : ∀ i ∈ next :: items, i ∈ item :: next :: items := fun _ =>
          List.mem_cons_of_mem item
        rw [skipBlank_append (hstyle.lineBreak level), skipBlank_chars (hlegal _ (hnext _
          List.mem_cons_self))]
        refine ih (fun i hi => hlegal i (hnext i hi)) (fun i hi => hread i (hnext i hi)) ?_
        rw [itemChars, List.length_cons, List.length_append, List.length_append] at hfuel
        omega

end Items

section Members

/-- Members with their names, as an object keeps them. -/
abbrev named (members : List (String × Json)) : List (Option String × Json) :=
  members.map fun (name, value) => (some name, value)

theorem memberChars_named_nil : memberChars style level (named []) = [] := by
  rw [named, List.map_nil, memberChars]

theorem memberChars_named_cons (name : String) (value : Json) (members : List (String × Json)) :
    memberChars style level (named ((name, value) :: members)) =
      ',' :: (style.lineBreak level ++ (textChars (some name) ++ (style.colon ++
        (chars style level value ++ memberChars style level (named members))))) := by
  simp only [named, List.map_cons, memberChars, List.append_assoc]

theorem startsOutside_memberChars (style : Style) (level : Nat)
    (hblanks : blanks.all isBlank = true) (members : List (String × Json)) (rest : List Char) :
    StartsOutside goesOn (memberChars style level (named members) ++ (blanks ++ '}' :: rest)) := by
  cases members with
  | nil =>
      rw [memberChars_named_nil]
      exact startsOutside_blanks hblanks (by decide) rest
  | cons member members =>
      rw [memberChars_named_cons]
      exact (by decide : goesOn ',' = false)

theorem memberRead_chars (hstyle : style.Blank) {value : Json} (hvalue : value.Legal)
    (name : String) {r : List Char}
    (h : readValue? fuel (chars style level value ++ r) = some (value, r)) :
    MemberRead fuel (textChars (some name) ++ (style.colon ++ (chars style level value ++ r))) name
      value r := by
  obtain ⟨blanks, hblanks, hcolon⟩ := hstyle.colon
  refine ⟨style.colon ++ (chars style level value ++ r), blanks ++ (chars style level value ++ r),
    rfl, ?_, ?_⟩
  · rw [hcolon, List.cons_append, skipBlank_cons (by decide)]
  · rw [skipBlank_append hblanks, skipBlank_chars hvalue, h]

theorem skipBlank_textChars (text : Option String) (s : List Char) :
    skipBlank (textChars text ++ s) = textChars text ++ s := by
  rw [textChars, List.cons_append, skipBlank_cons (by decide)]

/-- The members of an object, up to the closing brace. -/
theorem readMembers?_chars (hstyle : style.Blank) (hblanks : blanks.all isBlank = true)
    (rest : List Char) {name : String} {value : Json} {members : List (String × Json)}
    (hlegal : ∀ m ∈ (name, value) :: members, m.2.Legal)
    (hread : ∀ m ∈ (name, value) :: members, ReadBack style m.2)
    (hfuel : 2 * ((chars style level value).length +
      (memberChars style level (named members)).length) + 3 ≤ fuel) :
    readMembers? fuel (textChars (some name) ++ (style.colon ++ (chars style level value ++
      (memberChars style level (named members) ++ (blanks ++ '}' :: rest))))) =
      some ((some name, value) :: named members, rest) := by
  induction members generalizing name value fuel with
  | nil =>
      obtain ⟨fuel, rfl⟩ : ∃ f, fuel = f + 1 := ⟨fuel - 1, by omega⟩
      have hvalue : readValue? fuel (chars style level value ++ _) = some (value, _) :=
        (hread (name, value) List.mem_cons_self).front
          (startsOutside_memberChars style level hblanks [] rest) (by dsimp only; omega)
      refine readMembers?_last (memberRead_chars hstyle (hlegal _ List.mem_cons_self) name hvalue) ?_
      rw [memberChars_named_nil, List.nil_append, skipBlank_append hblanks,
        skipBlank_cons (by decide)]
  | cons next members ih =>
      obtain ⟨other, next⟩ := next
      obtain ⟨fuel, rfl⟩ : ∃ f, fuel = f + 1 := ⟨fuel - 1, by omega⟩
      have hvalue : readValue? fuel (chars style level value ++ _) = some (value, _) :=
        (hread (name, value) List.mem_cons_self).front
          (startsOutside_memberChars style level hblanks ((other, next) :: members) rest)
          (by dsimp only; omega)
      have hmember := memberRead_chars hstyle (hlegal _ List.mem_cons_self) name hvalue
      have hnext : ∀ m ∈ (other, next) :: members, m ∈ (name, value) :: (other, next) :: members :=
        fun _ => List.mem_cons_of_mem _
      rw [memberChars_named_cons] at hfuel hmember ⊢
      simp only [List.cons_append, List.append_assoc, List.length_cons,
        List.length_append] at hfuel hmember ⊢
      refine readMembers?_more hmember (skipBlank_cons (by decide) _) ?_
      rw [skipBlank_append (hstyle.lineBreak level), skipBlank_textChars]
      exact ih (fun m hm => hlegal m (hnext m hm)) (fun m hm => hread m (hnext m hm)) (by omega)

end Members

theorem readBack_array (hstyle : style.Blank) {items : List Json}
    (hlegal : ∀ item ∈ items, item.Legal) (hread : ∀ item ∈ items, ReadBack style item) :
    ReadBack style (array items) := by
  refine .of_step (.array hlegal) fun {level fuel rest} hrest hfuel => ?_
  cases items with
  | nil =>
      rw [chars]
      rfl
  | cons item items =>
      have hitem := hlegal item List.mem_cons_self
      have hskip := skipBlank_append (hstyle.lineBreak (level + 1))
        (chars style (level + 1) item ++ (itemChars style (level + 1) items ++
          (style.lineBreak level ++ ']' :: rest)))
      rw [skipBlank_chars hitem] at hskip
      rw [chars] at hfuel ⊢
      simp only [List.cons_append, List.append_assoc, List.nil_append, List.length_cons,
        List.length_append] at hfuel ⊢
      rw [readValue?_array, hskip,
        readItems?_chars hstyle (hstyle.lineBreak level) rest hlegal hread (by omega)]
      · rfl
      · rw [hskip]
        exact chars_append_ne hitem _

theorem chars_ofMembers_cons (name : String) (value : Json) (members : List (String × Json)) :
    chars style level (ofMembers ((name, value) :: members)) =
      '{' :: (style.lineBreak (level + 1) ++ (textChars (some name) ++ (style.colon ++
        (chars style (level + 1) value ++ (memberChars style (level + 1) (named members) ++
          (style.lineBreak level ++ ['}'])))))) := by
  simp only [ofMembers, named, List.map_cons, chars, List.append_assoc]

theorem readBack_object (hstyle : style.Blank) {members : List (String × Json)}
    (hlegal : ∀ member ∈ members, member.2.Legal)
    (hread : ∀ member ∈ members, ReadBack style member.2) :
    ReadBack style (ofMembers members) := by
  refine .of_step (.object hlegal) fun {level fuel rest} hrest hfuel => ?_
  rcases members with _ | ⟨⟨name, value⟩, members⟩
  · rw [ofMembers, List.map_nil, chars]
    rfl
  · have hskip := skipBlank_append (hstyle.lineBreak (level + 1))
      (textChars (some name) ++ (style.colon ++ (chars style (level + 1) value ++
        (memberChars style (level + 1) (named members) ++ (style.lineBreak level ++ '}' :: rest)))))
    rw [skipBlank_textChars] at hskip
    have hopen : ∀ s t, textChars (some name) ++ s ≠ '}' :: t := fun s t heq =>
      absurd (List.cons.inj heq).1 (by decide)
    rw [chars_ofMembers_cons] at hfuel ⊢
    simp only [List.cons_append, List.append_assoc, List.nil_append, List.length_cons,
      List.length_append] at hfuel ⊢
    rw [readValue?_object, hskip,
      readMembers?_chars hstyle (hstyle.lineBreak level) rest hlegal hread (by omega)]
    · rfl
    · rw [hskip]
      exact hopen _

/-- Whatever can be written is read back, in every style that puts blanks between the parts. -/
theorem readBack_of_legal (hstyle : style.Blank) (hj : j.Legal) : ReadBack style j := by
  induction hj with
  | null =>
      refine .of_step .null fun _ _ => ?_
      rw [chars]
      rfl
  | bool b =>
      refine .of_step (.bool b) fun _ _ => ?_
      cases b <;> rw [chars] <;> rfl
  | number hn =>
      refine .of_step (.number hn) fun hrest _ => ?_
      rw [chars]
      exact readValue?_numeral hn hrest _
  | text s =>
      refine .of_step (.text s) fun _ _ => ?_
      rw [ofText, chars]
      exact readValue?_text s _ _
  | array hlegal ih => exact readBack_array hstyle hlegal ih
  | object hlegal ih => exact readBack_object hstyle hlegal ih

/-- The text of a value is the text of this value alone. -/
theorem ofString?_chars (hstyle : style.Blank) (hj : j.Legal) :
    ofString? (String.ofList (chars style 0 j)) = some j := by
  have hfuel : 2 * (chars style 0 j).length ≤ fuelFor (chars style 0 j) := Nat.le_add_right _ _
  have hread := (readBack_of_legal hstyle hj).front (show StartsOutside goesOn [] from trivial) hfuel
  have hskip := @skipBlank_chars style 0 j hj []
  rw [List.append_nil] at hread hskip
  rw [ofString?, String.toList_ofList]
  simp only [hskip, hread]
  rfl

theorem ofString?_pretty (hj : j.Legal) : ofString? j.pretty = some j :=
  ofString?_chars blank_prettyStyle hj

end Values

section Fields

/-- A whole number is read back from the field that it is written in. -/
theorem toNatural?_ofNatural {n : Nat} (h : n < Numeral.wordBound) :
    (ofNatural n).toNatural? = some n :=
  Numeral.toNatural?_ofNatural h

theorem toNaturalBelow?_ofNatural {n bound : Nat} (h : n < Numeral.wordBound) (hbound : n < bound) :
    toNaturalBelow? bound (ofNatural n) = some n := by
  rw [toNaturalBelow?, toNatural?_ofNatural h]
  exact if_pos hbound

theorem ofSingle_of_not_finite {x : Float32} (h : Binary32.magnitude? x = none) :
    ofSingle x = null := by
  rw [ofSingle, Numeral.ofSingle?, h]
  rfl

/-- A 32-bit number is read back from the field that it is written in, unless it is infinite. -/
theorem toSingle?_ofSingle {x : Float32} (hx : Scalar.isNumber x = true) :
    (ofSingle x).toSingle? = if Binary32.isInfinite x then none else some x := by
  cases Binary32.kind x with
  | notANumber hunpacked => exact absurd hunpacked ((isNumber_iff x).mp hx)
  | infinity hparts hinfinite =>
      rw [ofSingle_of_not_finite hparts, if_pos hinfinite]
      rfl
  | finite m e hparts =>
      have hfinite : Binary32.isInfinite x = false := by
        rw [Binary32.magnitude?] at hparts
        have hfield : Binary32.exponentField x ≠ Binary32.highestField := fun h => by
          simp [h] at hparts
        simp [Binary32.isInfinite, hfield]
      obtain ⟨n, hn, hread, -⟩ := Numeral.exists_ofSingle? hparts
      rw [ofSingle, hn, hfinite]
      exact hread

theorem legal_ofSingle (x : Float32) : (ofSingle x).Legal := by
  cases h : Binary32.magnitude? x with
  | none =>
      rw [ofSingle_of_not_finite h]
      exact .null
  | some a =>
      obtain ⟨n, hn, -, hlegal⟩ := Numeral.exists_ofSingle? h
      rw [ofSingle, hn]
      exact .number hlegal

theorem legal_ofNatural (n : Nat) : (ofNatural n).Legal := .number (Numeral.legal_ofNatural n)

end Fields

section Records

variable {names : List String} {members : List (String × Json)}

/-- A record gives back the fields that it is written with, if their names are different. -/
theorem record?_ofMembers (hnames : ∀ member ∈ members, member.1 ∈ names)
    (hnodup : (members.map Prod.fst).Nodup) : (ofMembers members).record? names = some members := by
  rw [ofMembers, record?]
  induction members with
  | nil => rfl
  | cons member members ih =>
      obtain ⟨name, value⟩ := member
      rw [List.map_cons, List.nodup_cons] at hnodup
      have hknown : names.contains name = true :=
        List.contains_iff_mem.mpr (hnames _ List.mem_cons_self)
      have hnew : members.lookup name = none := by
        rw [List.lookup_eq_none_iff]
        intro member hmember
        have hmem : member.1 ∈ members.map Prod.fst := List.mem_map_of_mem hmember
        have hne : name ≠ member.1 := fun heq => hnodup.1 (heq ▸ hmem)
        simpa using hne
      rw [List.map_cons, selectFields?,
        ih (fun member h => hnames member (List.mem_cons_of_mem _ h)) hnodup.2]
      simp [hnew, hnames (name, value)]

theorem lookup_of_mem (hnodup : (members.map Prod.fst).Nodup) {member : String × Json}
    (h : member ∈ members) : members.lookup member.1 = some member.2 := by
  induction members with
  | nil => cases h
  | cons first members ih =>
      rw [List.map_cons, List.nodup_cons] at hnodup
      rcases List.mem_cons.mp h with rfl | hmem
      · exact List.lookup_cons_self
      · have hmap : member.1 ∈ members.map Prod.fst := List.mem_map_of_mem hmem
        have hne : (member.1 == first.1) = false :=
          beq_eq_false_iff_ne.mpr fun heq => hnodup.1 (heq ▸ hmap)
        obtain ⟨name, value⟩ := first
        rw [List.lookup_cons, hne]
        exact ih hnodup.2 hmem

/-- The fields that a record gives back, each with what it was written as. -/
theorem exists_record? (hnames : ∀ member ∈ members, member.1 ∈ names)
    (hnodup : (members.map Prod.fst).Nodup) :
    ∃ fields, (ofMembers members).record? names = some fields ∧
      ∀ member ∈ members, fields.lookup member.1 = some member.2 :=
  ⟨members, record?_ofMembers hnames hnodup, fun _ => lookup_of_mem hnodup⟩

end Records

end Penumbra.Json
