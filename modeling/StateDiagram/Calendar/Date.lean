/-!
# Calendar dates

Dates of the Gregorian calendar, continued to all years.
-/

namespace StateDiagram

def isLeapYear (year : Int) : Bool := year % 4 = 0 && (year % 100 ≠ 0 || year % 400 = 0)

def daysInMonth (year : Int) (month : Nat) : Nat :=
  if month = 2 then if isLeapYear year then 29 else 28
  else if month = 4 ∨ month = 6 ∨ month = 9 ∨ month = 11 then 30
  else 31

theorem one_le_daysInMonth (year : Int) (month : Nat) : 1 ≤ daysInMonth year month := by
  unfold daysInMonth
  split <;> split <;> decide

@[ext] structure Date where
  year : Int
  month : Nat
  day : Nat
  month_pos : 1 ≤ month
  month_le : month ≤ 12
  day_pos : 1 ≤ day
  day_le : day ≤ daysInMonth year month
  deriving DecidableEq, Repr

namespace Date

def ofYearMonthDay? (year : Int) (month day : Nat) : Option Date :=
  if h : (1 ≤ month ∧ month ≤ 12) ∧ 1 ≤ day ∧ day ≤ daysInMonth year month then
    some ⟨year, month, day, h.1.1, h.1.2, h.2.1, h.2.2⟩
  else none

@[simp] theorem ofYearMonthDay?_self (d : Date) :
    ofYearMonthDay? d.year d.month d.day = some d := by
  simp [ofYearMonthDay?, d.month_pos, d.month_le, d.day_pos, d.day_le]

def firstOfYear (year : Int) : Date := ⟨year, 1, 1, by decide, by decide, by decide, by
  exact one_le_daysInMonth year 1⟩

def lastOfYear (year : Int) : Date := ⟨year, 12, 31, by decide, by decide, by decide, by
  simp [daysInMonth]⟩

def next (d : Date) : Date :=
  if hd : d.day < daysInMonth d.year d.month then
    { d with day := d.day + 1, day_pos := Nat.le_add_left 1 d.day, day_le := hd }
  else if hm : d.month < 12 then
    ⟨d.year, d.month + 1, 1, Nat.le_add_left 1 d.month, hm, Nat.le_refl 1,
      one_le_daysInMonth d.year (d.month + 1)⟩
  else firstOfYear (d.year + 1)

def prev (d : Date) : Date :=
  if hd : 1 < d.day then
    { d with
      day := d.day - 1
      day_pos := Nat.le_sub_one_of_lt hd
      day_le := Nat.le_trans (Nat.sub_le d.day 1) d.day_le }
  else if hm : 1 < d.month then
    ⟨d.year, d.month - 1, daysInMonth d.year (d.month - 1), Nat.le_sub_one_of_lt hm,
      Nat.le_trans (Nat.sub_le d.month 1) d.month_le,
      one_le_daysInMonth d.year (d.month - 1), Nat.le_refl _⟩
  else lastOfYear (d.year - 1)

def addDays (d : Date) : Int → Date
  | .ofNat n => Nat.repeat next n d
  | .negSucc n => Nat.repeat prev (n + 1) d

/-- Days of the years before this one, counted from the start of year one. -/
def daysBeforeYear (year : Int) : Int :=
  365 * (year - 1) + (year - 1) / 4 - (year - 1) / 100 + (year - 1) / 400

/-- Days of the months of a year before this one, where January is the first. -/
def daysBeforeMonth (year : Int) : Nat → Nat
  | 0 | 1 => 0
  | month + 2 => daysBeforeMonth year (month + 1) + daysInMonth year (month + 1)

def dayNumber (d : Date) : Int :=
  daysBeforeYear d.year + daysBeforeMonth d.year d.month + (d.day - 1)

end Date

end StateDiagram
