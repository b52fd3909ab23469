import StateDiagram.Json.Basic
import StateDiagram.Text.Decimal

/-!
# JSON as text

Written without blanks.  Only quotes, backslashes and control characters are escaped.
-/

namespace StateDiagram.Json

def escapedChar (c : Char) : List Char :=
  if c = '"' then ['\\', '"']
  else if c = '\\' then ['\\', '\\']
  else if c = '\x08' then ['\\', 'b']
  else if c = '\t' then ['\\', 't']
  else if c = '\n' then ['\\', 'n']
  else if c = '\x0c' then ['\\', 'f']
  else if c = '\r' then ['\\', 'r']
  else if c.toNat < 0x20 then
    ['\\', 'u', '0', '0', Nat.digitChar (c.toNat / 16), Nat.digitChar (c.toNat % 16)]
  else [c]

/-- A string that is not text is written as half of a surrogate pair. -/
def quoted : Option String → List Char
  | some text => '"' :: text.toList.flatMap escapedChar ++ ['"']
  | none => ['"', '\\', 'u', 'd', '8', '0', '0', '"']

mutual

def toChars : Json → List Char
  | .null => ['n', 'u', 'l', 'l']
  | .bool true => ['t', 'r', 'u', 'e']
  | .bool false => ['f', 'a', 'l', 's', 'e']
  | .integer n => Text.signedDecimal n
  | .real numeral => numeral.toList
  | .string text => quoted text
  | .array items => '[' :: itemsToChars items ++ [']']
  | .object members => '\x7b' :: membersToChars members ++ ['\x7d']

def itemsToChars : List Json → List Char
  | [] => []
  | [item] => item.toChars
  | item :: items => item.toChars ++ ',' :: itemsToChars items

def membersToChars : List (Option String × Json) → List Char
  | [] => []
  | [(key, value)] => quoted key ++ ':' :: value.toChars
  | (key, value) :: members =>
      quoted key ++ ':' :: value.toChars ++ ',' :: membersToChars members

end

def render (j : Json) : String := String.ofList j.toChars

end StateDiagram.Json
