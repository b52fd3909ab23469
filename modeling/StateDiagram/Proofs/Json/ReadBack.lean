import StateDiagram.Json.Reader
import StateDiagram.Json.Writer
import StateDiagram.Proofs.Text.Digits

/-!
# JSON documents read back

A document without fractions and without broken strings is read back from its text.  It may be
followed by anything that does not continue a numeral.
-/

namespace StateDiagram.Json

/-! ## Strings -/

theorem hexUnit?_control :
    ∀ n < 0x20, hexUnit? '0' '0' (Nat.digitChar (n / 16)) (Nat.digitChar (n % 16)) = some n := by
  decide

section Escapes

variable {rest tail : List Char} {units : List Nat} {c letter : Char}

theorem readUnits?_escape (hrest : readUnits? rest = some (units, tail)) (hletter : letter ≠ 'u')
    (hc : unescape? letter = some c) :
    readUnits? ('\\' :: letter :: rest) = some (c.toNat :: units, tail) := by
  rw [readUnits?]
  · simp only [hc, hrest, Option.bind_eq_bind, Option.bind_some]
  · rintro _ _ _ _ _ rfl
    contradiction

theorem readUnits?_plain (hrest : readUnits? rest = some (units, tail)) (hquote : c ≠ '"')
    (hescape : c ≠ '\\') (hcontrol : ¬c.toNat < 0x20) :
    readUnits? (c :: rest) = some (c.toNat :: units, tail) := by
  rw [readUnits?, if_neg hcontrol, hrest]
  · rfl
  · exact hquote
  · exact fun _ _ _ _ _ h => absurd h hescape
  · exact fun _ _ h => absurd h hescape

theorem readUnits?_escapedChar (hrest : readUnits? rest = some (units, tail)) :
    readUnits? (escapedChar c ++ rest) = some (c.toNat :: units, tail) := by
  by_cases hnamed : c ∈ ['"', '\\', '\x08', '\t', '\n', '\x0c', '\r']
  · simp only [List.mem_cons, List.not_mem_nil, or_false] at hnamed
    rcases hnamed with rfl | rfl | rfl | rfl | rfl | rfl | rfl <;>
      exact readUnits?_escape hrest (by decide) rfl
  · simp only [List.mem_cons, not_or] at hnamed
    by_cases hcontrol : c.toNat < 0x20
    · have hescaped : escapedChar c =
          ['\\', 'u', '0', '0', Nat.digitChar (c.toNat / 16), Nat.digitChar (c.toNat % 16)] := by
        simp [escapedChar, hnamed, hcontrol]
      simp only [hescaped, List.cons_append, List.nil_append, readUnits?,
        hexUnit?_control _ hcontrol, hrest, Option.bind_eq_bind, Option.bind_some]
    · have hescaped : escapedChar c = [c] := by simp [escapedChar, hnamed, hcontrol]
      rw [hescaped]
      exact readUnits?_plain hrest hnamed.1 hnamed.2.1 hcontrol

end Escapes

theorem readUnits?_flatMap (text rest : List Char) :
    readUnits? (text.flatMap escapedChar ++ '"' :: rest) = some (text.map Char.toNat, rest) := by
  induction text with
  | nil => rfl
  | cons c text ih =>
      rw [List.flatMap_cons, List.append_assoc, List.map_cons]
      exact readUnits?_escapedChar ih

theorem not_surrogate (c : Char) :
    isHighSurrogate c.toNat = false ∧ isLowSurrogate c.toNat = false := by
  have hvalid : c.toNat < 0xD800 ∨ 0xDFFF < c.toNat ∧ c.toNat < 0x110000 := c.valid
  simp only [isHighSurrogate, isLowSurrogate, Bool.and_eq_false_iff, decide_eq_false_iff_not]
  omega

theorem textOfUnits?_toNat_cons (c : Char) (units : List Nat) :
    textOfUnits? (c.toNat :: units) = (textOfUnits? units).map (c :: ·) := by
  obtain ⟨hhigh, hlow⟩ := not_surrogate c
  cases units with
  | nil => simp [textOfUnits?, hhigh, hlow]
  | cons unit units => simp [textOfUnits?, hhigh, hlow]

theorem textOfUnits?_map_toNat (text : List Char) :
    textOfUnits? (text.map Char.toNat) = some text := by
  induction text with
  | nil => rfl
  | cons c text ih => rw [List.map_cons, textOfUnits?_toNat_cons, ih, Option.map_some]

theorem readString?_flatMap (text : String) (rest : List Char) :
    readString? (text.toList.flatMap escapedChar ++ '"' :: rest) = some (some text, rest) := by
  simp only [readString?, readUnits?_flatMap, Option.map_some, textOfUnits?_map_toNat,
    String.ofList_toList]

/-! ## Numerals -/

/-- The text does not continue a numeral. -/
def EndsNumeral (rest : List Char) : Prop :=
  ∀ c ∈ rest.head?, c.isDigit = false ∧ c ≠ '.' ∧ c ≠ 'e' ∧ c ≠ 'E'

theorem endsNumeral_nil : EndsNumeral [] := by simp [EndsNumeral]

theorem EndsNumeral.noDigit {rest : List Char} (h : EndsNumeral rest) : Text.NoDigit rest :=
  fun c hc => (h c hc).1

theorem readFraction?_of_endsNumeral {rest : List Char} (h : EndsNumeral rest) :
    readFraction? rest = some ([], rest) := by
  rw [readFraction?.eq_def]
  split
  · exact absurd rfl (h '.' rfl).2.1
  · rfl

theorem readExponent?_of_endsNumeral {rest : List Char} (h : EndsNumeral rest) :
    readExponent? rest = some ([], rest) := by
  cases rest with
  | nil => rfl
  | cons c rest =>
      obtain ⟨-, -, he, hE⟩ := h c rfl
      simp [readExponent?.eq_def, he, hE]

theorem readDigits?_decimal (n : Nat) {rest : List Char} (h : Text.NoDigit rest) :
    readDigits? (Text.decimal n ++ rest) = some (Text.decimal n, rest) := by
  have hall : ∀ c ∈ Text.decimal n, c.isDigit = true := fun _ => Text.isDigit_of_mem_decimal
  rw [readDigits?, Text.takeWhile_isDigit_append hall h, Text.dropWhile_isDigit_append hall h]
  simp [Text.decimal_ne_nil]

theorem ofNumeral?_decimal (negative : Bool) {n : Nat} (h : negative = true → n ≠ 0) :
    ofNumeral? negative (Text.decimal n) [] =
      some (.integer (if negative then -Int.ofNat n else Int.ofNat n)) := by
  have hzero : ¬((Text.decimal n).head? = some '0' ∧ (Text.decimal n).length ≠ 1) := by
    rintro ⟨hhead, hlength⟩
    obtain rfl := Text.eq_zero_of_head?_decimal hhead
    exact hlength rfl
  rw [ofNumeral?, if_neg hzero, Text.nat?_decimal, Option.map_some, if_pos]
  simpa using h

theorem readUnsigned?_decimal (negative : Bool) {n : Nat} (h : negative = true → n ≠ 0)
    {rest : List Char} (hrest : EndsNumeral rest) :
    readUnsigned? negative (Text.decimal n ++ rest) =
      some (.integer (if negative then -Int.ofNat n else Int.ofNat n), rest) := by
  rw [readUnsigned?, readDigits?_decimal n hrest.noDigit]
  simp only [Option.bind_eq_bind, Option.bind_some, readFraction?_of_endsNumeral hrest,
    readExponent?_of_endsNumeral hrest, List.append_nil, ofNumeral?_decimal negative h]

/-- Blanks, and what begins another value or closes a list. -/
def nonNumeral : List Char :=
  [' ', '\t', '\n', '\r', 'n', 't', 'f', '"', '[', ']', '\x7b']

theorem exists_signedDecimal_cons (n : Int) :
    ∃ c tail, Text.signedDecimal n = c :: tail ∧ c ∉ nonNumeral := by
  cases n with
  | ofNat n =>
      have hnone : nonNumeral.any Char.isDigit = false := by decide
      obtain ⟨c, digits, hdecimal, hc⟩ := Text.exists_decimal_cons n
      exact ⟨c, digits, hdecimal, fun h => List.any_eq_false.1 hnone c h hc⟩
  | negSucc n => exact ⟨'-', _, rfl, by decide⟩

theorem readNumber?_signedDecimal (n : Int) {rest : List Char} (hrest : EndsNumeral rest) :
    readNumber? (Text.signedDecimal n ++ rest) = some (.integer n, rest) := by
  cases n with
  | ofNat n =>
      have hread := @readUnsigned?_decimal false n nofun rest hrest
      obtain ⟨c, digits, hdecimal, hc⟩ := Text.exists_decimal_cons n
      rw [Text.signedDecimal]
      rw [hdecimal] at hread ⊢
      rw [List.cons_append, readNumber?]
      · exact hread
      · intro _ heq
        cases heq
        contradiction
  | negSucc n => exact @readUnsigned?_decimal true (n + 1) (fun _ => n.succ_ne_zero) rest hrest

/-! ## Documents -/

mutual

/-- The document has neither fractions nor strings that are not text. -/
def IsPlain : Json → Prop
  | .null | .bool _ | .integer _ => True
  | .real _ => False
  | .string text => text.isSome
  | .array items => ArePlainItems items
  | .object members => ArePlainMembers members

def ArePlainItems : List Json → Prop
  | [] => True
  | item :: items => item.IsPlain ∧ ArePlainItems items

def ArePlainMembers : List (Option String × Json) → Prop
  | [] => True
  | (key, value) :: members => key.isSome ∧ value.IsPlain ∧ ArePlainMembers members

end

section Reading

variable {fuel : Nat} {text more rest : List Char}

theorem skipSpaces_cons {c : Char} (h : isSpace c = false) (rest : List Char) :
    skipSpaces (c :: rest) = c :: rest :=
  List.dropWhile_cons_of_neg (by simp [h])

theorem isSpace_eq_false {c : Char} (h : c ∉ nonNumeral) : isSpace c = false := by
  simp only [nonNumeral, List.mem_cons, not_or] at h
  simp [isSpace, h]

theorem readValue?_signedDecimal (n : Int) (fuel : Nat) (hrest : EndsNumeral rest) :
    readValue? (fuel + 1) (Text.signedDecimal n ++ rest) = some (.integer n, rest) := by
  have hread := readNumber?_signedDecimal n hrest
  obtain ⟨c, tail, hn, hc⟩ := exists_signedDecimal_cons n
  have hskip := skipSpaces_cons (isSpace_eq_false hc) (tail ++ rest)
  rw [hn, List.cons_append] at hread ⊢
  simp only [nonNumeral, List.mem_cons, not_or] at hc
  simp [readValue?, hskip, hc, hread]

theorem quoted_some_append (text : String) (rest : List Char) :
    quoted (some text) ++ rest = '"' :: (text.toList.flatMap escapedChar ++ '"' :: rest) := by
  simp [quoted]

theorem readValue?_quoted (text : String) (fuel : Nat) (rest : List Char) :
    readValue? (fuel + 1) (quoted (some text) ++ rest) = some (.string (some text), rest) := by
  rw [quoted_some_append]
  change (readString? _).map _ = _
  rw [readString?_flatMap, Option.map_some]

/-- A document begins with a character that is no space and closes no list. -/
theorem expect?_toChars {j : Json} (h : j.IsPlain) (rest : List Char) :
    expect? ']' (j.toChars ++ rest) = none := by
  cases j with
  | null => rfl
  | bool b => cases b <;> rfl
  | integer n =>
      obtain ⟨c, tail, hn, hc⟩ := exists_signedDecimal_cons n
      rw [toChars, hn, List.cons_append, expect?, skipSpaces_cons (isSpace_eq_false hc)]
      simp only [nonNumeral, List.mem_cons, not_or] at hc
      simp [hc]
  | real numeral => exact absurd h (by simp [IsPlain])
  | string text => cases text <;> rfl
  | array items => rfl
  | object members => rfl

theorem readItems?_last {item : Json}
    (hitem : readValue? fuel text = some (item, ']' :: rest)) :
    readItems? (fuel + 1) text = some ([item], rest) := by
  simp only [readItems?, hitem, Option.bind_eq_bind, Option.bind_some]
  rfl

theorem readItems?_more {item : Json} {items : List Json}
    (hitem : readValue? fuel text = some (item, ',' :: more))
    (hmore : readItems? fuel more = some (items, rest)) :
    readItems? (fuel + 1) text = some (item :: items, rest) := by
  have hcomma : expect? ',' (',' :: more) = some more := rfl
  simp only [readItems?, hitem, hcomma, hmore, Option.bind_eq_bind, Option.bind_some]

theorem expect?_quoted (key : String) (rest : List Char) :
    expect? '"' (quoted (some key) ++ rest) =
      some (key.toList.flatMap escapedChar ++ '"' :: rest) := by
  rw [quoted_some_append]
  rfl

theorem readMembers?_last (key : String) {value : Json}
    (hvalue : readValue? fuel text = some (value, '\x7d' :: rest)) :
    readMembers? (fuel + 1) (quoted (some key) ++ ':' :: text) =
      some ([(some key, value)], rest) := by
  have hcolon : expect? ':' (':' :: text) = some text := rfl
  simp only [readMembers?, expect?_quoted, readString?_flatMap, hcolon, hvalue,
    Option.bind_eq_bind, Option.bind_some]
  rfl

theorem readMembers?_more (key : String) {value : Json} {members : List (Option String × Json)}
    (hvalue : readValue? fuel text = some (value, ',' :: more))
    (hmore : readMembers? fuel more = some (members, rest)) :
    readMembers? (fuel + 1) (quoted (some key) ++ ':' :: text) =
      some ((some key, value) :: members, rest) := by
  have hcolon : expect? ':' (':' :: text) = some text := rfl
  have hcomma : expect? ',' (',' :: more) = some more := rfl
  simp only [readMembers?, expect?_quoted, readString?_flatMap, hcolon, hvalue, hcomma, hmore,
    Option.bind_eq_bind, Option.bind_some]

theorem readValue?_array {items : List Json} (hitem : expect? ']' text = none)
    (hitems : readItems? fuel text = some (items, rest)) :
    readValue? (fuel + 1) ('[' :: text) = some (.array items, rest) := by
  have hskip : skipSpaces ('[' :: text) = '[' :: text := rfl
  simp only [readValue?, hskip, hitem, hitems, Option.map_some]

theorem readValue?_object {members : List (Option String × Json)}
    (hmember : expect? '\x7d' text = none)
    (hmembers : readMembers? fuel text = some (members, rest)) :
    readValue? (fuel + 1) ('\x7b' :: text) = some (.object members, rest) := by
  have hskip : skipSpaces ('\x7b' :: text) = '\x7b' :: text := rfl
  simp only [readValue?, hskip, hmember, hmembers, Option.map_some]

end Reading

/-- A value is followed by a comma or by the end of the list or object that it is in. -/
theorem endsNumeral_cons {c : Char} (h : c ∈ [',', ']', '\x7d']) (rest : List Char) :
    EndsNumeral (c :: rest) := by
  simp only [List.mem_cons, List.not_mem_nil, or_false] at h
  rcases h with rfl | rfl | rfl <;> simp [EndsNumeral]

theorem itemsToChars_cons_cons (item next : Json) (items : List Json) :
    itemsToChars (item :: next :: items) = item.toChars ++ ',' :: itemsToChars (next :: items) :=
  rfl

theorem membersToChars_cons_cons (key : Option String) (value : Json)
    (next : Option String × Json) (members : List (Option String × Json)) :
    membersToChars ((key, value) :: next :: members) =
      quoted key ++ ':' :: value.toChars ++ ',' :: membersToChars (next :: members) :=
  rfl

theorem expect?_itemsToChars {item : Json} (h : item.IsPlain) (items : List Json)
    (rest : List Char) : expect? ']' (itemsToChars (item :: items) ++ rest) = none := by
  cases items with
  | nil => exact expect?_toChars h rest
  | cons next items =>
      rw [itemsToChars_cons_cons, List.append_assoc]
      exact expect?_toChars h _

theorem expect?_membersToChars (key : String) (value : Json)
    (members : List (Option String × Json)) (rest : List Char) :
    expect? '\x7d' (membersToChars ((some key, value) :: members) ++ rest) = none := by
  cases members <;> rfl

-- The induction is on the fuel, which every reader hands on less one.
mutual

theorem readValue?_toChars : ∀ (fuel : Nat) (j : Json) (rest : List Char), j.IsPlain →
    j.toChars.length < fuel → EndsNumeral rest →
    readValue? fuel (j.toChars ++ rest) = some (j, rest)
  | _ + 1, .null, _, _, _, _ => rfl
  | _ + 1, .bool true, _, _, _, _ => rfl
  | _ + 1, .bool false, _, _, _, _ => rfl
  | fuel + 1, .integer n, _, _, _, hrest => readValue?_signedDecimal n fuel hrest
  | fuel + 1, .string (some text), rest, _, _, _ => readValue?_quoted text fuel rest
  | _ + 1, .array [], _, _, _, _ => rfl
  | fuel + 1, .array (item :: items), rest, h, hfuel, _ => by
      simp only [toChars, List.length_append, List.length_cons, List.length_nil] at hfuel
      simp only [toChars, List.cons_append, List.append_assoc, List.nil_append]
      exact readValue?_array (expect?_itemsToChars h.1 items _)
        (readItems?_itemsToChars fuel item items rest h (by omega))
  | _ + 1, .object [], _, _, _, _ => rfl
  | fuel + 1, .object ((some key, value) :: members), rest, h, hfuel, _ => by
      simp only [toChars, List.length_append, List.length_cons, List.length_nil] at hfuel
      simp only [toChars, List.cons_append, List.append_assoc, List.nil_append]
      exact readValue?_object (expect?_membersToChars key value members _)
        (readMembers?_membersToChars fuel key value members rest h (by omega))

theorem readItems?_itemsToChars : ∀ (fuel : Nat) (item : Json) (items : List Json)
    (rest : List Char), ArePlainItems (item :: items) →
    (itemsToChars (item :: items)).length + 1 < fuel →
    readItems? fuel (itemsToChars (item :: items) ++ ']' :: rest) = some (item :: items, rest)
  | fuel + 1, item, [], rest, h, hfuel => by
      rw [itemsToChars] at hfuel ⊢
      exact readItems?_last
        (readValue?_toChars fuel item _ h.1 (by omega) (endsNumeral_cons (by simp) rest))
  | fuel + 1, item, next :: items, rest, h, hfuel => by
      rw [itemsToChars_cons_cons, List.length_append, List.length_cons] at hfuel
      rw [itemsToChars_cons_cons, List.append_assoc, List.cons_append]
      exact readItems?_more
        (readValue?_toChars fuel item _ h.1 (by omega) (endsNumeral_cons (by simp) _))
        (readItems?_itemsToChars fuel next items rest h.2 (by omega))

theorem readMembers?_membersToChars : ∀ (fuel : Nat) (key : String) (value : Json)
    (members : List (Option String × Json)) (rest : List Char),
    ArePlainMembers ((some key, value) :: members) →
    (membersToChars ((some key, value) :: members)).length + 1 < fuel →
    readMembers? fuel (membersToChars ((some key, value) :: members) ++ '\x7d' :: rest) =
      some ((some key, value) :: members, rest)
  | fuel + 1, key, value, [], rest, h, hfuel => by
      rw [membersToChars, List.length_append, List.length_cons] at hfuel
      rw [membersToChars, List.append_assoc, List.cons_append]
      exact readMembers?_last key
        (readValue?_toChars fuel value _ h.2.1 (by omega) (endsNumeral_cons (by simp) rest))
  | fuel + 1, key, value, (some next, nextValue) :: members, rest, h, hfuel => by
      simp only [membersToChars_cons_cons, List.length_append, List.length_cons] at hfuel
      simp only [membersToChars_cons_cons, List.append_assoc, List.cons_append]
      exact readMembers?_more key
        (readValue?_toChars fuel value _ h.2.1 (by omega) (endsNumeral_cons (by simp) _))
        (readMembers?_membersToChars fuel next nextValue members rest h.2.2 (by omega))

end

theorem parse?_render {j : Json} (h : j.IsPlain) : parse? j.render = some j := by
  have hread := readValue?_toChars _ j [] h (Nat.lt_succ_self _) endsNumeral_nil
  rw [List.append_nil] at hread
  rw [parse?, render, String.toList_ofList, ofChars?, hread]
  rfl

end StateDiagram.Json
