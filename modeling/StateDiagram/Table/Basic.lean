import StateDiagram.Table.Dictionary

/-!
# Transition tables

The states of a diagram in the order in which they were met first, each with its dictionary.  The
place of a state in this order is its position.
-/

namespace StateDiagram

structure Table where
  rows : List (Ident × Dictionary)
  deriving DecidableEq, Repr

namespace Table

def empty : Table := ⟨[]⟩

def size (t : Table) : Nat := t.rows.length

def isEmpty (t : Table) : Bool := t.rows.isEmpty

def states (t : Table) : List Ident := t.rows.map Prod.fst

def position? (t : Table) (state : Ident) : Option Nat := t.states.idxOf? state

def state? (t : Table) (position : Nat) : Option Ident := t.states[position]?

def get? (t : Table) (state : Ident) : Option Dictionary := t.rows.lookup state

def dictionary? (t : Table) (position : Nat) : Option Dictionary :=
  t.rows[position]?.map Prod.snd

/-- The named entries of all states, in the order of the states and then of their keys. -/
def namedEntries (t : Table) : List Entry :=
  t.rows.flatMap fun (_, d) => d.named.map Prod.snd

/-- Changes the dictionary of a state.  A state that is not in the table comes last, and its
dictionary was empty. -/
def modify (t : Table) (state : Ident) (change : Dictionary → Dictionary) : Table :=
  ⟨Assoc.put state (change ((t.get? state).getD .empty)) t.rows⟩

def register (t : Table) (state : Ident) : Table := t.modify state id

@[simp] theorem length_states (t : Table) : t.states.length = t.size := by
  simp [states, size]

theorem states_modify (t : Table) (state : Ident) (change : Dictionary → Dictionary) :
    (t.modify state change).states =
      if state ∈ t.states then t.states else t.states ++ [state] :=
  Assoc.keys_put state _ t.rows

@[simp] theorem get?_modify_self (t : Table) (state : Ident)
    (change : Dictionary → Dictionary) :
    (t.modify state change).get? state = some (change ((t.get? state).getD .empty)) :=
  Assoc.lookup_put_self state _ t.rows

theorem get?_modify_of_ne {state other : Ident} (h : other ≠ state) (t : Table)
    (change : Dictionary → Dictionary) : (t.modify state change).get? other = t.get? other :=
  Assoc.lookup_put_of_ne h _ t.rows

end Table

end StateDiagram
