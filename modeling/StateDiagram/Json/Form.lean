import StateDiagram.Calendar.TimestampText
import StateDiagram.Json.Reader
import StateDiagram.Json.Writer

/-!
# JSON forms

How values of a type are written as JSON, and which documents are read as such values.  Integers
have to fit in the width of their type; positions and counts have 64 bits.
-/

namespace StateDiagram

class JsonForm (α : Type) where
  toJson : α → Json
  ofJson? : Json → Option α

namespace JsonForm

def toText {α : Type} [JsonForm α] (a : α) : String := (toJson a).render

def ofText? {α : Type} [JsonForm α] (text : String) : Option α := do
  let j ← Json.parse? text
  ofJson? j

def natural? (bound : Nat) : Json → Option Nat
  | .integer n => if 0 ≤ n ∧ n < bound then some n.toNat else none
  | _ => none

instance : JsonForm Nat where
  toJson n := .integer n
  ofJson? j := natural? UInt64.size j

instance : JsonForm UInt32 where
  toJson n := .integer n.toNat
  ofJson? j := (natural? UInt32.size j).map UInt32.ofNat

instance : JsonForm Int64 where
  toJson n := .integer n.toInt
  ofJson?
    | .integer n => Text.int64OfInt? n
    | _ => none

instance : JsonForm Bool where
  toJson b := .bool b
  ofJson?
    | .bool b => some b
    | _ => none

instance : JsonForm String where
  toJson text := .ofText text
  ofJson?
    | .string text => text
    | _ => none

instance : JsonForm Timestamp where
  toJson t := .ofText t.toText
  ofJson?
    | .string (some text) => Timestamp.ofText? text
    | _ => none

instance {α : Type} [JsonForm α] : JsonForm (Option α) where
  toJson
    | some a => toJson a
    | none => .null
  ofJson?
    | .null => some none
    | j => (ofJson? j).map some

instance {α : Type} [JsonForm α] : JsonForm (List α) where
  toJson as := .array (as.map toJson)
  ofJson?
    | .array items => items.mapM ofJson?
    | _ => none

end JsonForm

end StateDiagram
