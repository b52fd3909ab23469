import StateDiagram.Assoc
import StateDiagram.Ident

/-!
# Trigger dictionaries

The entries of one state under their trigger keys.  The default entry has the empty key and answers
every trigger that has no entry of its own.
-/

namespace StateDiagram

/-- What happens when an entry fires besides the move: nothing is called, or the callables of the
entry are. -/
inductive Action where
  | label
  | compose
  deriving DecidableEq, Repr

structure Entry where
  next : Ident
  /-- What gates the entry; none for a default entry. -/
  event : Option Ident
  action : Action
  deriving DecidableEq, Repr

namespace Entry

/-- The entry that leads to `next`.  It composes if there is anything to call. -/
def leadingTo (next : Ident) (event : Option Ident) : Entry :=
  ⟨next, event, if next.isCallable || event.any Ident.isCallable then .compose else .label⟩

end Entry

def defaultKey : String := ""

structure Dictionary where
  entries : List (String × Entry)
  deriving DecidableEq, Repr

namespace Dictionary

def empty : Dictionary := ⟨[]⟩

def get? (d : Dictionary) (key : String) : Option Entry := d.entries.lookup key

def default? (d : Dictionary) : Option Entry := d.get? defaultKey

/-- The entry that answers the trigger, with the key under which it was found. -/
def lookup? (d : Dictionary) (trigger : String) : Option (String × Entry) :=
  ((d.get? trigger).map fun entry => (trigger, entry)).or
    (d.default?.map fun entry => (defaultKey, entry))

def insert (d : Dictionary) (key : String) (entry : Entry) : Dictionary :=
  ⟨Assoc.put key entry d.entries⟩

def erase (d : Dictionary) (key : String) : Dictionary := ⟨Assoc.erase key d.entries⟩

/-- The entries that have a trigger of their own. -/
def named (d : Dictionary) : List (String × Entry) :=
  d.entries.filter fun (key, _) => key ≠ defaultKey

def size (d : Dictionary) : Nat := d.entries.length

def isEmpty (d : Dictionary) : Bool := d.entries.isEmpty

theorem lookup?_of_get? {d : Dictionary} {trigger : String} {entry : Entry}
    (h : d.get? trigger = some entry) : d.lookup? trigger = some (trigger, entry) := by
  simp [lookup?, h]

theorem lookup?_eq_none_iff {d : Dictionary} {trigger : String} :
    d.lookup? trigger = none ↔ d.get? trigger = none ∧ d.default? = none := by
  simp [lookup?]

@[simp] theorem get?_insert_self (d : Dictionary) (key : String) (entry : Entry) :
    (d.insert key entry).get? key = some entry :=
  Assoc.lookup_put_self key entry d.entries

theorem get?_insert_of_ne {key other : String} (h : other ≠ key) (d : Dictionary)
    (entry : Entry) : (d.insert key entry).get? other = d.get? other :=
  Assoc.lookup_put_of_ne h entry d.entries

end Dictionary

end StateDiagram
