import Mathlib.Algebra.Group.Nat.Defs
import StateDiagram.Text.Blank
import StateDiagram.Text.Decimal

/-!
# Digits at the front of a text

A run of digits is read to its end if no digit follows it.
-/

namespace StateDiagram.Text

/-- The text does not begin with a digit. -/
def NoDigit (rest : List Char) : Prop := ∀ c ∈ rest.head?, c.isDigit = false

theorem noDigit_nil : NoDigit [] := by simp [NoDigit]

theorem noDigit_cons {c : Char} {rest : List Char} (h : c.isDigit = false) :
    NoDigit (c :: rest) := by
  simpa [NoDigit] using h

theorem NoDigit.take {rest : List Char} (h : NoDigit rest) (n : Nat) :
    NoDigit (rest.take n) := by
  cases n with
  | zero => exact noDigit_nil
  | succ n =>
      cases rest with
      | nil => exact noDigit_nil
      | cons c rest => exact h

variable {digits rest : List Char}

theorem takeWhile_isDigit_append (hdigits : ∀ c ∈ digits, c.isDigit = true)
    (hrest : NoDigit rest) : (digits ++ rest).takeWhile Char.isDigit = digits := by
  rw [List.takeWhile_append_of_pos hdigits]
  cases rest with
  | nil => rw [List.takeWhile_nil, List.append_nil]
  | cons c rest =>
      rw [List.takeWhile_cons_of_neg (by simp [hrest c rfl]), List.append_nil]

theorem dropWhile_isDigit_append (hdigits : ∀ c ∈ digits, c.isDigit = true)
    (hrest : NoDigit rest) : (digits ++ rest).dropWhile Char.isDigit = rest := by
  rw [List.dropWhile_append_of_pos hdigits]
  cases rest with
  | nil => rfl
  | cons c rest => rw [List.dropWhile_cons_of_neg (by simp [hrest c rfl])]

theorem isBlank_of_isDigit {c : Char} (h : c.isDigit = true) : isBlank c = false := by
  have hrange : 48 ≤ c.toNat ∧ c.toNat ≤ 57 := by
    simp only [Char.isDigit, Bool.and_eq_true, decide_eq_true_eq] at h
    exact h
  simp [isBlank, blankRanges]
  omega

theorem exists_padded_cons (width n : Nat) :
    ∃ c digits, padded width n = c :: digits ∧ c.isDigit = true := by
  obtain ⟨c, digits, h⟩ := List.exists_cons_of_ne_nil (padded_ne_nil width n)
  exact ⟨c, digits, h, isDigit_of_mem_padded (h ▸ List.mem_cons_self)⟩

theorem exists_decimal_cons (n : Nat) :
    ∃ c digits, decimal n = c :: digits ∧ c.isDigit = true := by
  obtain ⟨c, digits, h⟩ := List.exists_cons_of_ne_nil (decimal_ne_nil n)
  exact ⟨c, digits, h, isDigit_of_mem_decimal (h ▸ List.mem_cons_self)⟩

/-- Only the numeral of zero begins with a zero. -/
theorem eq_zero_of_head?_decimal {n : Nat} (h : (decimal n).head? = some '0') : n = 0 := by
  induction n using Nat.strongRecOn with
  | ind n ih =>
      rcases Nat.lt_or_ge n 10 with hlt | hge
      · have hdigit : ∀ d < 10, [Nat.digitChar d].head? = some '0' → d = 0 := by decide
        rw [decimal, Nat.toDigits_of_lt_base hlt] at h
        exact hdigit n hlt h
      · obtain ⟨c, digits, hdecimal, -⟩ := exists_decimal_cons (n / 10)
        have hzero : n / 10 = 0 := by
          refine ih (n / 10) (by omega) ?_
          rw [decimal, Nat.toDigits_of_base_le (by decide) hge, ← decimal, hdecimal] at h
          rw [hdecimal]
          exact h
        omega

theorem length_padded_of_lt {width n : Nat} (hwidth : 0 < width) (h : n < 10 ^ width) :
    (padded width n).length = width :=
  length_padded ((Nat.length_toDigits_le_iff (by decide) hwidth).2 h)

theorem length_padded_le {width limit n : Nat} (hlimit : 0 < limit) (hwidth : width ≤ limit)
    (h : n < 10 ^ limit) : (padded width n).length ≤ limit := by
  have hdecimal : (decimal n).length ≤ limit :=
    (Nat.length_toDigits_le_iff (by decide) hlimit).2 h
  simp only [padded, List.length_append, List.length_replicate]
  omega

end StateDiagram.Text
