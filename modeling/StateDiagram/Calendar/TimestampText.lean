import StateDiagram.Calendar.Timestamp
import StateDiagram.Text.Blank
import StateDiagram.Text.Decimal

/-!
# Timestamps as text

Written as `YYYY-MM-DDTHH:MM:SSZ` with the fewest of 0, 3, 6 and 9 digits of fraction that are
exact.  A year outside four digits carries its sign.  Reading is more lenient: blanks may precede a
field or a separator, leading zeros may be missing, any fraction is cut to nanoseconds, and an
offset from universal time is taken off.
-/

namespace StateDiagram.Timestamp

open Text

/-! ## Writing -/

def yearText (year : Int) : List Char :=
  if 0 ≤ year ∧ year ≤ 9999 then padded 4 year.toNat
  else (if year < 0 then '-' else '+') :: padded 4 year.natAbs

def fractionText (nano : Nat) : List Char :=
  if nano = 0 then []
  else if nano % 1000000 = 0 then '.' :: padded 3 (nano / 1000000)
  else if nano % 1000 = 0 then '.' :: padded 6 (nano / 1000)
  else '.' :: padded 9 nano

def toChars (t : Timestamp) : List Char :=
  yearText t.date.year ++ '-' :: padded 2 t.date.month ++ '-' :: padded 2 t.date.day ++
    'T' :: padded 2 t.hour ++ ':' :: padded 2 t.minute ++ ':' :: padded 2 t.second ++
    fractionText t.nano ++ ['Z']

def toText (t : Timestamp) : String := String.ofList t.toChars

/-! ## Reading -/

def skipBlanks (text : List Char) : List Char := text.dropWhile isBlank

def expect? (c : Char) : List Char → Option (List Char)
  | [] => none
  | d :: rest => if d = c then some rest else none

def leadingDigits (limit : Nat) (text : List Char) : List Char :=
  (text.take limit).takeWhile Char.isDigit

def readNumeral? (limit : Nat) (text : List Char) : Option (Nat × List Char) :=
  let digits := leadingDigits limit text
  (nat? digits).map fun n => (n, text.drop digits.length)

def readField? (text : List Char) : Option (Nat × List Char) := readNumeral? 2 (skipBlanks text)

/-- Four digits at most, or a sign and any number of digits. -/
def readYear? (text : List Char) : Option (Int × List Char) :=
  match skipBlanks text with
  | '-' :: rest => (readNumeral? rest.length rest).map fun (n, rest) => (-Int.ofNat n, rest)
  | '+' :: rest => (readNumeral? rest.length rest).map fun (n, rest) => (Int.ofNat n, rest)
  | rest => (readNumeral? 4 rest).map fun (n, rest) => (Int.ofNat n, rest)

def readDate? (text : List Char) : Option (Date × List Char) := do
  let (year, text) ← readYear? text
  let text ← expect? '-' (skipBlanks text)
  let (month, text) ← readField? text
  let text ← expect? '-' (skipBlanks text)
  let (day, text) ← readField? text
  let date ← Date.ofYearMonthDay? year month day
  some (date, text)

def bounded? (bound n : Nat) : Option (Fin bound) :=
  if h : n < bound then some ⟨n, h⟩ else none

/-- Digits after a point, padded with zeros to nine.  Those beyond the ninth are dropped. -/
def readFraction? : List Char → Option (Fin 1000000000 × List Char)
  | '.' :: text => do
      let digits := leadingDigits 9 text
      let _ ← nat? digits
      let n ← nat? (digits ++ List.replicate (9 - digits.length) '0')
      let nano ← bounded? 1000000000 n
      some (nano, text.dropWhile Char.isDigit)
  | text => some (0, text)

def readPair? : List Char → Option (Nat × List Char)
  | a :: b :: rest => (nat? [a, b]).map fun n => (n, rest)
  | _ => none

/-- Hours and minutes with a colon, blanks or nothing between them; in seconds. -/
def readOffset? (text : List Char) : Option (Int × List Char) := do
  let (hours, text) ← readPair? text
  let (minutes, rest) ← readPair? (text.dropWhile fun c => c = ':' || isBlank c)
  if hours < 24 ∧ minutes < 60 then some (hours * 3600 + minutes * 60, rest) else none

/-- How far the local time is ahead of universal time, in seconds. -/
def readZone? (text : List Char) : Option (Int × List Char) :=
  match skipBlanks text with
  | 'Z' :: rest | 'z' :: rest => some (0, rest)
  | '+' :: rest => readOffset? rest
  | '-' :: rest | '\u2212' :: rest => (readOffset? rest).map fun (n, rest) => (-n, rest)
  | u :: t :: c :: rest =>
      if u.toUpper = 'U' ∧ t.toUpper = 'T' ∧ c.toUpper = 'C' then some (0, rest) else none
  | _ => none

/-- What stands between the date and the time of day. -/
def readSeparator? : List Char → Option (List Char)
  | 'T' :: rest | 't' :: rest | ' ' :: rest => some rest
  | _ => none

def ofChars? (text : List Char) : Option Timestamp := do
  let (date, text) ← readDate? text
  let text ← readSeparator? text
  let (hour, text) ← readField? text
  let hour ← bounded? 24 hour
  let text ← expect? ':' (skipBlanks text)
  let (minute, text) ← readField? text
  let minute ← bounded? 60 minute
  let text ← expect? ':' (skipBlanks text)
  let (second, text) ← readField? text
  let second ← bounded? 60 second
  let (nano, text) ← readFraction? text
  let (ahead, text) ← readZone? text
  if text.all isBlank then some (addSeconds ⟨date, hour, minute, second, nano⟩ (-ahead))
  else none

def ofText? (text : String) : Option Timestamp := ofChars? text.toList

end StateDiagram.Timestamp
