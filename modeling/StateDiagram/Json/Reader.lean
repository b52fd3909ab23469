import StateDiagram.Json.Basic
import StateDiagram.Json.Strings
import StateDiagram.Text.Decimal

/-!
# Reading JSON

The grammar is strict: numerals have no superfluous zero or plus sign, there are no comments and no
trailing commas, and nothing but blanks may follow the document.
-/

namespace StateDiagram.Json

def isSpace (c : Char) : Bool := c = ' ' || c = '\t' || c = '\n' || c = '\r'

def skipSpaces (text : List Char) : List Char := text.dropWhile isSpace

/-! ## Numerals -/

/-- The digits at the front, of which there is at least one. -/
def readDigits? (text : List Char) : Option (List Char × List Char) :=
  let digits := text.takeWhile Char.isDigit
  if digits.isEmpty then none else some (digits, text.dropWhile Char.isDigit)

def readFraction? : List Char → Option (List Char × List Char)
  | '.' :: rest => (readDigits? rest).map fun (digits, rest) => ('.' :: digits, rest)
  | rest => some ([], rest)

def readExponent? : List Char → Option (List Char × List Char)
  | e :: rest =>
      if e = 'e' ∨ e = 'E' then
        match rest with
        | '+' :: rest => (readDigits? rest).map fun (digits, rest) => (e :: '+' :: digits, rest)
        | '-' :: rest => (readDigits? rest).map fun (digits, rest) => (e :: '-' :: digits, rest)
        | rest => (readDigits? rest).map fun (digits, rest) => (e :: digits, rest)
      else some ([], e :: rest)
  | [] => some ([], [])

/-- A numeral of which sign, digits, fraction and exponent are known. -/
def ofNumeral? (negative : Bool) (digits tail : List Char) : Option Json :=
  if digits.head? = some '0' ∧ digits.length ≠ 1 then none
  else
    (Text.nat? digits).map fun magnitude =>
      if tail.isEmpty ∧ ¬(negative ∧ magnitude = 0) then
        .integer (if negative then -Int.ofNat magnitude else Int.ofNat magnitude)
      else .real (String.ofList ((if negative then ['-'] else []) ++ digits ++ tail))

def readUnsigned? (negative : Bool) (text : List Char) : Option (Json × List Char) := do
  let (digits, text) ← readDigits? text
  let (fraction, text) ← readFraction? text
  let (exponent, text) ← readExponent? text
  let number ← ofNumeral? negative digits (fraction ++ exponent)
  some (number, text)

def readNumber? : List Char → Option (Json × List Char)
  | '-' :: rest => readUnsigned? true rest
  | rest => readUnsigned? false rest

/-! ## Values -/

def expect? (c : Char) (text : List Char) : Option (List Char) :=
  match skipSpaces text with
  | d :: rest => if d = c then some rest else none
  | [] => none

mutual

/-- Reads a value.  Every nested value, item and member takes one unit of fuel, and at least one
character of the text. -/
def readValue? : Nat → List Char → Option (Json × List Char)
  | 0, _ => none
  | fuel + 1, text =>
      match skipSpaces text with
      | 'n' :: 'u' :: 'l' :: 'l' :: rest => some (.null, rest)
      | 't' :: 'r' :: 'u' :: 'e' :: rest => some (.bool true, rest)
      | 'f' :: 'a' :: 'l' :: 's' :: 'e' :: rest => some (.bool false, rest)
      | '"' :: rest => (readString? rest).map fun (text, rest) => (.string text, rest)
      | '[' :: rest =>
          match expect? ']' rest with
          | some rest => some (.array [], rest)
          | none => (readItems? fuel rest).map fun (items, rest) => (.array items, rest)
      | '\x7b' :: rest =>
          match expect? '\x7d' rest with
          | some rest => some (.object [], rest)
          | none => (readMembers? fuel rest).map fun (members, rest) => (.object members, rest)
      | rest => readNumber? rest

def readItems? : Nat → List Char → Option (List Json × List Char)
  | 0, _ => none
  | fuel + 1, text => do
      let (item, text) ← readValue? fuel text
      match expect? ',' text with
      | some rest =>
          let (items, rest) ← readItems? fuel rest
          some (item :: items, rest)
      | none =>
          let rest ← expect? ']' text
          some ([item], rest)

def readMembers? : Nat → List Char → Option (List (Option String × Json) × List Char)
  | 0, _ => none
  | fuel + 1, text => do
      let text ← expect? '"' text
      let (key, text) ← readString? text
      let text ← expect? ':' text
      let (value, text) ← readValue? fuel text
      match expect? ',' text with
      | some rest =>
          let (members, rest) ← readMembers? fuel rest
          some ((key, value) :: members, rest)
      | none =>
          let rest ← expect? '\x7d' text
          some ([(key, value)], rest)

end

def ofChars? (text : List Char) : Option Json := do
  let (value, rest) ← readValue? (text.length + 1) text
  if rest.all isSpace then some value else none

def parse? (text : String) : Option Json := ofChars? text.toList

end StateDiagram.Json
