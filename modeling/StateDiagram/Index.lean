import StateDiagram.Table.Basic

/-!
# Index tables

States and events numbered from zero in the order in which they were met first.  Identifiers with
one label are told apart here.
-/

namespace StateDiagram

structure Index where
  states : List Ident
  events : List Ident
  deriving DecidableEq, Repr

namespace Index

/-- Events are met at the named entries of the table; a default entry has none. -/
def ofTable (t : Table) : Index :=
  ⟨t.states.eraseDups, (t.namedEntries.filterMap Entry.event).eraseDups⟩

def stateIndex? (index : Index) (state : Ident) : Option Nat := index.states.idxOf? state

def eventIndex? (index : Index) (event : Ident) : Option Nat := index.events.idxOf? event

def state? (index : Index) (n : Nat) : Option Ident := index.states[n]?

def event? (index : Index) (n : Nat) : Option Ident := index.events[n]?

end Index

end StateDiagram
