import StateDiagram.Index

/-!
# Transition matrices

A row for each state and a column for each event; a cell holds the index of the next state, if
there is a transition.  Default entries have no column.
-/

namespace StateDiagram

abbrev Row := List (Option Nat)

structure TransitionMatrix where
  rows : List Row
  deriving DecidableEq, Repr

namespace TransitionMatrix

/-- The next state of the entry that the event gates. -/
def cell? (index : Index) (d : Dictionary) (event : Ident) : Option Nat := do
  let (_, entry) ← d.named.find? fun (_, entry) => entry.event = some event
  index.stateIndex? entry.next

def rowOf (index : Index) (d : Dictionary) : Row := index.events.map (cell? index d)

def ofTable (t : Table) (index : Index) : TransitionMatrix :=
  ⟨index.states.map fun state => rowOf index ((t.get? state).getD .empty)⟩

def row? (m : TransitionMatrix) (state : Nat) : Option Row := m.rows[state]?

/-- The next state; none also outside the matrix. -/
def get? (m : TransitionMatrix) (state event : Nat) : Option Nat := do
  let row ← m.row? state
  let cell ← row[event]?
  cell

def size (m : TransitionMatrix) : Nat := m.rows.length

def isEmpty (m : TransitionMatrix) : Bool := m.rows.isEmpty

def width (m : TransitionMatrix) : Nat := (m.rows.head?.map List.length).getD 0

end TransitionMatrix

namespace Row

def setCells (row : Row) : Nat := row.countP Option.isSome

end Row

namespace Table

def index (t : Table) : Index := .ofTable t

def matrix (t : Table) : TransitionMatrix := .ofTable t t.index

end Table

end StateDiagram
