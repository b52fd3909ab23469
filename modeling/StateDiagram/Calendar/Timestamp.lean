import StateDiagram.Calendar.Date

/-!
# Timestamps

Moments of universal time to the nanosecond, without leap seconds.
-/

namespace StateDiagram

@[ext] structure Timestamp where
  date : Date
  hour : Fin 24
  minute : Fin 60
  second : Fin 60
  nano : Fin 1000000000
  deriving DecidableEq, Repr

namespace Timestamp

def secondsPerDay : Nat := 86400

def secondOfDay (t : Timestamp) : Nat := t.hour * 3600 + t.minute * 60 + t.second

/-- The moment at a second of a day, counted modulo the length of a day. -/
def ofSecondOfDay (date : Date) (second : Nat) (nano : Fin 1000000000) : Timestamp :=
  ⟨date, ⟨second / 3600 % 24, Nat.mod_lt _ (by decide)⟩,
    ⟨second / 60 % 60, Nat.mod_lt _ (by decide)⟩, ⟨second % 60, Nat.mod_lt _ (by decide)⟩, nano⟩

def addSeconds (t : Timestamp) (seconds : Int) : Timestamp :=
  let total := t.secondOfDay + seconds
  ofSecondOfDay (t.date.addDays (total / secondsPerDay)) (total % secondsPerDay).toNat t.nano

def nanoseconds (t : Timestamp) : Int :=
  (t.date.dayNumber * secondsPerDay + t.secondOfDay) * 1000000000 + t.nano

def until? (t later : Timestamp) : Option Nat :=
  if t.nanoseconds ≤ later.nanoseconds then some (later.nanoseconds - t.nanoseconds).toNat
  else none

theorem ofSecondOfDay_secondOfDay (t : Timestamp) :
    ofSecondOfDay t.date t.secondOfDay t.nano = t := by
  obtain ⟨date, hour, minute, second, nano⟩ := t
  simp only [ofSecondOfDay, secondOfDay, mk.injEq, true_and, and_true, Fin.ext_iff]
  omega

@[simp] theorem addSeconds_zero (t : Timestamp) : t.addSeconds 0 = t := by
  have hlt : t.secondOfDay < secondsPerDay := by
    simp only [secondOfDay, secondsPerDay]
    omega
  have hdiv : ((t.secondOfDay : Int) + 0) / (secondsPerDay : Int) = 0 :=
    Int.ediv_eq_zero_of_lt (by omega) (by omega)
  have hmod : ((t.secondOfDay : Int) + 0) % (secondsPerDay : Int) = t.secondOfDay := by
    rw [Int.emod_eq_of_lt (by omega) (by omega)]
    omega
  simp only [addSeconds, hdiv, hmod]
  exact ofSecondOfDay_secondOfDay t

end Timestamp

end StateDiagram
