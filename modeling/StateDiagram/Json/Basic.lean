/-!
# JSON documents

A document keeps the order of its members, and what is wrong with it that only matters where it is
used: repeated keys, and strings that hold half of a surrogate pair.
-/

namespace StateDiagram

inductive Json where
  | null
  | bool (b : Bool)
  | integer (n : Int)
  /-- A numeral with a fraction or an exponent, or the numeral of minus zero. -/
  | real (numeral : String)
  /-- None for a string that is not text, since half of a surrogate pair is missing. -/
  | string (text : Option String)
  | array (items : List Json)
  | object (members : List (Option String × Json))
  deriving Inhabited, Repr

namespace Json

def ofText (text : String) : Json := .string (some text)

def ofRecord (members : List (String × Json)) : Json :=
  .object (members.map fun (key, value) => (some key, value))

/-- The value of the only member with this name, if there is one; an outer none if there are
several. -/
def member? (members : List (Option String × Json)) (name : String) : Option (Option Json) :=
  match members.filter fun (key, _) => key = some name with
  | [] => some none
  | [(_, value)] => some (some value)
  | _ => none

/-- The values of a record's fields, which are given by name in any order or as a list in the order
of the names.  Members of other names are ignored, and a list may end early. -/
def fields? (names : List String) : Json → Option (List (Option Json))
  | .object members =>
      if members.all fun (key, _) => key.isSome then names.mapM (member? members) else none
  | .array items =>
      if items.length ≤ names.length then
        some (items.map some ++ List.replicate (names.length - items.length) none)
      else none
  | _ => none

/-- The values of a record of which no field is missing. -/
def record? (names : List String) (j : Json) : Option (List Json) := do
  let fields ← j.fields? names
  fields.mapM id

/-- The name of a variant without content, which may also be written as a member that is null. -/
def variant? : Json → Option String
  | .string text => text
  | .object [(key, .null)] => key
  | _ => none

end Json

end StateDiagram
