import StateDiagram.Calendar.TimestampText

/-!
# Byte forms

How values of a type are written as bytes.  Integers have a fixed width and come with the low byte
first; a list or a string has its length in front, and a variant its number.  Reading hands back the
bytes that it did not need.
-/

namespace StateDiagram

abbrev Bytes := List UInt8

class ByteForm (α : Type) where
  encode : α → Bytes
  decode? : Bytes → Option (α × Bytes)

namespace ByteForm

def ofBytes? {α : Type} [ByteForm α] (bytes : Bytes) : Option α := (decode? bytes).map Prod.fst

/-! ## Integers -/

/-- The low bytes of a number, as many as the width says. -/
def encodeWord : Nat → Nat → Bytes
  | 0, _ => []
  | width + 1, n => UInt8.ofNat n :: encodeWord width (n / 256)

def decodeWord? : Nat → Bytes → Option (Nat × Bytes)
  | 0, bytes => some (0, bytes)
  | _ + 1, [] => none
  | width + 1, byte :: bytes => do
      let (high, rest) ← decodeWord? width bytes
      some (byte.toNat + 256 * high, rest)

def wordSize : Nat → Nat
  | 0 => 1
  | width + 1 => 256 * wordSize width

theorem decodeWord?_encodeWord (width n : Nat) (rest : Bytes) :
    decodeWord? width (encodeWord width n ++ rest) = some (n % wordSize width, rest) := by
  induction width generalizing n with
  | zero => simp [encodeWord, decodeWord?, wordSize, Nat.mod_one]
  | succ width ih =>
      simp only [encodeWord, List.cons_append, decodeWord?, ih, wordSize, Option.bind_eq_bind,
        Option.bind_some, Nat.mod_mul]
      simp

instance : ByteForm Nat where
  encode n := encodeWord 8 n
  decode? bytes := decodeWord? 8 bytes

instance : ByteForm UInt32 where
  encode n := encodeWord 4 n.toNat
  decode? bytes := (decodeWord? 4 bytes).map fun (n, rest) => (UInt32.ofNat n, rest)

/-- A negative number is written as its two's complement. -/
instance : ByteForm Int64 where
  encode n := encodeWord 8 n.toUInt64.toNat
  decode? bytes := (decodeWord? 8 bytes).map fun (n, rest) => ((UInt64.ofNat n).toInt64, rest)

def encodeTag (tag : Nat) : Bytes := encodeWord 4 tag

def decodeTag? (bytes : Bytes) : Option (Nat × Bytes) := decodeWord? 4 bytes

instance : ByteForm Bool where
  encode b := [if b then 1 else 0]
  decode?
    | 0 :: rest => some (false, rest)
    | 1 :: rest => some (true, rest)
    | _ => none

/-! ## Strings, options and lists -/

instance : ByteForm String where
  encode text := encodeWord 8 text.toUTF8.size ++ text.toUTF8.data.toList
  decode? bytes := do
    let (length, bytes) ← decodeWord? 8 bytes
    if length ≤ bytes.length then
      (String.fromUTF8? ⟨(bytes.take length).toArray⟩).map fun text => (text, bytes.drop length)
    else none

instance : ByteForm Timestamp where
  encode t := encode t.toText
  decode? bytes := do
    let (text, rest) ← decode? (α := String) bytes
    let t ← Timestamp.ofText? text
    some (t, rest)

instance {α : Type} [ByteForm α] : ByteForm (Option α) where
  encode
    | none => [0]
    | some a => 1 :: encode a
  decode?
    | 0 :: rest => some (none, rest)
    | 1 :: rest => (decode? rest).map fun (a, rest) => (some a, rest)
    | _ => none

def decodeMany? {α : Type} [ByteForm α] : Nat → Bytes → Option (List α × Bytes)
  | 0, bytes => some ([], bytes)
  | count + 1, bytes => do
      let (a, bytes) ← decode? bytes
      let (as, rest) ← decodeMany? count bytes
      some (a :: as, rest)

instance {α : Type} [ByteForm α] : ByteForm (List α) where
  encode as := encodeWord 8 as.length ++ as.flatMap encode
  decode? bytes := do
    let (count, bytes) ← decodeWord? 8 bytes
    decodeMany? count bytes

end ByteForm

end StateDiagram
