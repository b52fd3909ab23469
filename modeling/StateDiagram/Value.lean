/-!
# Values

What behaviors take as arguments and give as results.  `null` stands for "no result".
-/

namespace StateDiagram

inductive Value where
  | null
  | bool (b : Bool)
  /-- The number `mantissa * 10 ^ (-exponent)`. -/
  | number (mantissa : Int) (exponent : Nat)
  | text (t : String)
  | list (items : List Value)
  | record (fields : List (String × Value))
  deriving Inhabited, Repr, BEq

namespace Value

def ofInt (n : Int) : Value := .number n 0

def isNull : Value → Bool
  | .null => true
  | _ => false

end Value

end StateDiagram
