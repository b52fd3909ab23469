import StateDiagram.Ident

/-!
# Symbols

The names under which identifiers are known to a diagram that is written as plain text.
-/

namespace StateDiagram

structure Symbols where
  entries : List (String × Ident)
  deriving DecidableEq, Repr

namespace Symbols

def empty : Symbols := ⟨[]⟩

def insert (symbols : Symbols) (name : String) (ident : Ident) : Symbols :=
  ⟨(name, ident) :: symbols.entries⟩

def register (symbols : Symbols) (ident : Ident) : Symbols :=
  symbols.insert ident.label ident

def get? (symbols : Symbols) (name : String) : Option Ident :=
  symbols.entries.lookup name

/-- What an unregistered word stands for: a number if it is a numeral in range, else a text. -/
def scalarOfWord (word : String) : Scalar :=
  match Text.int64? word.toList with
  | some n => .number n
  | none => .text word

def resolve (symbols : Symbols) (word : String) : Ident :=
  (symbols.get? word).getD (.scalar (scalarOfWord word))

@[simp] theorem get?_empty (name : String) : empty.get? name = none := rfl

theorem get?_insert (symbols : Symbols) (name other : String) (ident : Ident) :
    (symbols.insert name ident).get? other =
      if other = name then some ident else symbols.get? other := by
  by_cases h : other = name
  · simp [get?, insert, h]
  · have hne : (other == name) = false := by simpa using h
    simp [get?, insert, List.lookup_cons, hne, h]

theorem resolve_of_get? {symbols : Symbols} {word : String} {ident : Ident}
    (h : symbols.get? word = some ident) : symbols.resolve word = ident := by
  simp [resolve, h]

end Symbols

end StateDiagram
