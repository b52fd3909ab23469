/-!
# The inside of a JSON string

Escapes give 16-bit units, and two units that form a surrogate pair stand for one character.
-/

namespace StateDiagram.Json

def hexValue? (c : Char) : Option Nat :=
  if '0' ≤ c ∧ c ≤ '9' then some (c.toNat - '0'.toNat)
  else if 'a' ≤ c ∧ c ≤ 'f' then some (c.toNat - 'a'.toNat + 10)
  else if 'A' ≤ c ∧ c ≤ 'F' then some (c.toNat - 'A'.toNat + 10)
  else none

def hexUnit? (a b c d : Char) : Option Nat := do
  let a ← hexValue? a
  let b ← hexValue? b
  let c ← hexValue? c
  let d ← hexValue? d
  some (a * 4096 + b * 256 + c * 16 + d)

def unescape? (letter : Char) : Option Char :=
  match letter with
  | '"' => some '"'
  | '\\' => some '\\'
  | '/' => some '/'
  | 'b' => some '\x08'
  | 'f' => some '\x0c'
  | 'n' => some '\n'
  | 'r' => some '\r'
  | 't' => some '\t'
  | _ => none

/-- The code points and escaped units up to the closing quote, and the text after it. -/
def readUnits? : List Char → Option (List Nat × List Char)
  | [] => none
  | '"' :: rest => some ([], rest)
  | '\\' :: 'u' :: a :: b :: c :: d :: rest => do
      let unit ← hexUnit? a b c d
      let (units, rest) ← readUnits? rest
      some (unit :: units, rest)
  | '\\' :: letter :: rest => do
      let c ← unescape? letter
      let (units, rest) ← readUnits? rest
      some (c.toNat :: units, rest)
  | c :: rest =>
      if c.toNat < 0x20 then none
      else do
        let (units, rest) ← readUnits? rest
        some (c.toNat :: units, rest)

def isHighSurrogate (unit : Nat) : Bool := 0xD800 ≤ unit && unit < 0xDC00

def isLowSurrogate (unit : Nat) : Bool := 0xDC00 ≤ unit && unit < 0xE000

/-- The text of a list of code points and units; none if a surrogate lacks its partner. -/
def textOfUnits? : List Nat → Option (List Char)
  | [] => some []
  | [unit] =>
      if isHighSurrogate unit || isLowSurrogate unit then none else some [Char.ofNat unit]
  | unit :: other :: rest =>
      if isLowSurrogate unit then none
      else if isHighSurrogate unit then
        if isLowSurrogate other then
          (textOfUnits? rest).map
            (Char.ofNat (0x10000 + (unit - 0xD800) * 0x400 + (other - 0xDC00)) :: ·)
        else none
      else (textOfUnits? (other :: rest)).map (Char.ofNat unit :: ·)

def readString? (text : List Char) : Option (Option String × List Char) :=
  (readUnits? text).map fun (units, rest) => ((textOfUnits? units).map String.ofList, rest)

end StateDiagram.Json
