import StateDiagram.Calendar.TimestampText
import StateDiagram.Proofs.Text.Digits

/-!
# Timestamps read back

Every moment is read back from its text, in whatever year and to the nanosecond.
-/

namespace StateDiagram.Timestamp

open Text

theorem leadingDigits_append {limit : Nat} {digits rest : List Char}
    (hdigits : ∀ c ∈ digits, c.isDigit = true) (hlimit : digits.length ≤ limit)
    (hrest : NoDigit rest) : leadingDigits limit (digits ++ rest) = digits := by
  rw [leadingDigits, List.take_append, List.take_of_length_le hlimit]
  exact takeWhile_isDigit_append hdigits (hrest.take _)

theorem readNumeral?_padded {limit width n : Nat} {rest : List Char}
    (hlimit : (padded width n).length ≤ limit) (hrest : NoDigit rest) :
    readNumeral? limit (padded width n ++ rest) = some (n, rest) := by
  have hdigits := leadingDigits_append (fun _ h => isDigit_of_mem_padded h) hlimit hrest
  simp [readNumeral?, hdigits]

theorem skipBlanks_cons {c : Char} (h : isBlank c = false) (rest : List Char) :
    skipBlanks (c :: rest) = c :: rest :=
  List.dropWhile_cons_of_neg (by simp [h])

theorem skipBlanks_padded (width n : Nat) (rest : List Char) :
    skipBlanks (padded width n ++ rest) = padded width n ++ rest := by
  obtain ⟨c, digits, h, hc⟩ := exists_padded_cons width n
  rw [h, List.cons_append, skipBlanks_cons (isBlank_of_isDigit hc)]

theorem expect?_skipBlanks_cons {c : Char} (h : isBlank c = false) (rest : List Char) :
    expect? c (skipBlanks (c :: rest)) = some rest := by
  rw [skipBlanks_cons h, expect?, if_pos rfl]

theorem readField?_padded {n : Nat} (h : n < 100) {rest : List Char} (hrest : NoDigit rest) :
    readField? (padded 2 n ++ rest) = some (n, rest) := by
  have hlength : (padded 2 n).length = 2 := length_padded_of_lt (by decide) h
  rw [readField?, skipBlanks_padded, readNumeral?_padded (Nat.le_of_eq hlength) hrest]

theorem readYear?_yearText (year : Int) {rest : List Char} (hrest : NoDigit rest) :
    readYear? (yearText year ++ rest) = some (year, rest) := by
  unfold yearText
  split
  · next hyear =>
      have hlength : (padded 4 year.toNat).length = 4 := length_padded_of_lt (by decide) (by omega)
      have hread := readNumeral?_padded (Nat.le_of_eq hlength) hrest
      -- The text begins with a digit, so it has no sign.
      obtain ⟨c, digits, hpadded, hc⟩ := exists_padded_cons 4 year.toNat
      rw [readYear?, skipBlanks_padded]
      rw [hpadded] at hread ⊢
      split
      · next heq =>
          cases heq
          contradiction
      · next heq =>
          cases heq
          contradiction
      · simp only [hread, Option.map_some, Int.ofNat_eq_natCast, Int.toNat_of_nonneg hyear.1]
  · next hyear =>
      have hlength : (padded 4 year.natAbs).length ≤ (padded 4 year.natAbs ++ rest).length := by
        simp
      have hread := readNumeral?_padded hlength hrest
      split
      · next hneg =>
          rw [readYear?, List.cons_append, skipBlanks_cons (by decide)]
          simp only [hread, Option.map_some, Int.ofNat_eq_natCast, Option.some.injEq,
            Prod.mk.injEq, and_true]
          omega
      · next hpos =>
          rw [readYear?, List.cons_append, skipBlanks_cons (by decide)]
          simp only [hread, Option.map_some, Int.ofNat_eq_natCast, Option.some.injEq,
            Prod.mk.injEq, and_true]
          omega

theorem daysInMonth_le (year : Int) (month : Nat) : daysInMonth year month ≤ 31 := by
  unfold daysInMonth
  split <;> split <;> decide

theorem readDate?_append (d : Date) {rest : List Char} (hrest : NoDigit rest) :
    readDate? (yearText d.year ++ '-' :: (padded 2 d.month ++ '-' :: (padded 2 d.day ++ rest))) =
      some (d, rest) := by
  have hmonth : d.month < 100 := by
    have := d.month_le
    omega
  have hday : d.day < 100 := by
    have := Nat.le_trans d.day_le (daysInMonth_le d.year d.month)
    omega
  rw [readDate?, readYear?_yearText _ (noDigit_cons rfl)]
  simp only [Option.bind_eq_bind, Option.bind_some]
  rw [expect?_skipBlanks_cons (by decide), Option.bind_some,
    readField?_padded hmonth (noDigit_cons rfl), Option.bind_some,
    expect?_skipBlanks_cons (by decide), Option.bind_some, readField?_padded hday hrest,
    Option.bind_some, Date.ofYearMonthDay?_self, Option.bind_some]

theorem readFraction?_padded {nano : Fin 1000000000} {width n : Nat} (hwidth : 0 < width)
    (hle : width ≤ 9) (hn : n < 10 ^ width) (hnano : nano.val = 10 ^ (9 - width) * n)
    {rest : List Char} (hrest : NoDigit rest) :
    readFraction? ('.' :: (padded width n ++ rest)) = some (nano, rest) := by
  have hlength := length_padded_of_lt hwidth hn
  have hall : ∀ c ∈ padded width n, c.isDigit = true := fun _ h => isDigit_of_mem_padded h
  have hdigits := leadingDigits_append hall (hlength.symm ▸ hle) hrest
  have hfilled : nat? (padded width n ++ List.replicate (9 - width) '0') = some nano.val := by
    have hzeros : (padded width n ++ List.replicate (9 - width) '0').all Char.isDigit = true := by
      rw [List.all_append, List.all_replicate, List.all_eq_true.2 hall]
      simp
    rw [nat?, hzeros, Nat.ofDigitChars_append, Nat.ofDigitChars_replicate_zero,
      ofDigitChars_padded, hnano]
    simp [padded_ne_nil]
  simp [readFraction?, hdigits, hlength, hfilled, bounded?, dropWhile_isDigit_append hall hrest]

theorem readFraction?_fractionText (nano : Fin 1000000000) {rest : List Char}
    (hrest : NoDigit rest) (hpoint : rest.head? ≠ some '.') :
    readFraction? (fractionText nano ++ rest) = some (nano, rest) := by
  unfold fractionText
  split
  · next hzero =>
      have hnano : nano = 0 := Fin.ext hzero
      rw [List.nil_append, readFraction?.eq_def]
      split
      · next heq => simp at hpoint
      · rw [hnano]
  split
  · exact readFraction?_padded (by decide) (by decide) (by omega) (by omega) hrest
  split
  · exact readFraction?_padded (by decide) (by decide) (by omega) (by omega) hrest
  · exact readFraction?_padded (by decide) (by decide) nano.isLt (by omega) hrest

theorem readField?_fin {bound : Nat} (hbound : bound ≤ 100) (n : Fin bound) {rest : List Char}
    (hrest : NoDigit rest) : readField? (padded 2 n ++ rest) = some (n.val, rest) :=
  readField?_padded (Nat.lt_of_lt_of_le n.isLt hbound) hrest

theorem bounded?_val {bound : Nat} (n : Fin bound) : bounded? bound n = some n := by
  rw [bounded?, dif_pos n.isLt]

theorem readZone?_z : readZone? ['Z'] = some (0, []) := rfl

theorem ofChars?_toChars (t : Timestamp) : ofChars? t.toChars = some t := by
  obtain ⟨date, hour, minute, second, nano⟩ := t
  have hzone : NoDigit ['Z'] := noDigit_cons rfl
  have hfraction : NoDigit (fractionText nano ++ ['Z']) := by
    unfold fractionText
    split
    · exact hzone
    split
    · exact noDigit_cons rfl
    split <;> exact noDigit_cons rfl
  simp only [toChars, List.append_assoc, List.cons_append]
  rw [ofChars?, readDate?_append date (noDigit_cons rfl)]
  simp only [Option.bind_eq_bind, Option.bind_some, readSeparator?]
  rw [readField?_fin (by decide) hour (noDigit_cons rfl), Option.bind_some, bounded?_val,
    Option.bind_some, expect?_skipBlanks_cons (by decide), Option.bind_some,
    readField?_fin (by decide) minute (noDigit_cons rfl), Option.bind_some, bounded?_val,
    Option.bind_some, expect?_skipBlanks_cons (by decide), Option.bind_some,
    readField?_fin (by decide) second hfraction, Option.bind_some, bounded?_val,
    Option.bind_some, readFraction?_fractionText nano hzone (by decide), Option.bind_some,
    readZone?_z, Option.bind_some]
  simp

@[simp] theorem ofText?_toText (t : Timestamp) : ofText? t.toText = some t := by
  rw [ofText?, toText, String.toList_ofList, ofChars?_toChars]

/-! ## The length of the text -/

theorem length_yearText_le {year : Int} (h : year.natAbs < 10 ^ 6) :
    (yearText year).length ≤ 7 := by
  unfold yearText
  split
  · next hyear =>
      rw [length_padded_of_lt (by decide) (by omega)]
      decide
  · rw [List.length_cons]
    exact Nat.succ_le_succ (length_padded_le (by decide) (by decide) h)

theorem length_fractionText_le (nano : Fin 1000000000) : (fractionText nano).length ≤ 10 := by
  unfold fractionText
  split
  · decide
  split
  · rw [List.length_cons, length_padded_of_lt (by decide) (by omega)]
    decide
  split
  · rw [List.length_cons, length_padded_of_lt (by decide) (by omega)]
    decide
  · exact Nat.le_of_eq (congrArg Nat.succ (length_padded_of_lt (by decide) nano.isLt))

theorem length_toChars_le {t : Timestamp} (h : t.date.year.natAbs < 10 ^ 6) :
    t.toChars.length ≤ 40 := by
  have hyear := length_yearText_le h
  have hmonth : (padded 2 t.date.month).length = 2 :=
    length_padded_of_lt (by decide) (by have := t.date.month_le; omega)
  have hday : (padded 2 t.date.day).length = 2 :=
    length_padded_of_lt (by decide) (by
      have := Nat.le_trans t.date.day_le (daysInMonth_le t.date.year t.date.month)
      omega)
  have hhour : (padded 2 t.hour).length = 2 := length_padded_of_lt (by decide) (by omega)
  have hminute : (padded 2 t.minute).length = 2 := length_padded_of_lt (by decide) (by omega)
  have hsecond : (padded 2 t.second).length = 2 := length_padded_of_lt (by decide) (by omega)
  have hfraction := length_fractionText_le t.nano
  simp only [toChars, List.length_append, List.length_cons, List.length_nil]
  omega

end StateDiagram.Timestamp
