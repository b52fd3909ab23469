import StateDiagram.Behavior
import StateDiagram.History
import StateDiagram.Table.Basic

/-!
# Machines

A machine runs on a table.  It decides where to go from the table and the trigger alone; what the
callables return is its output and does not steer it.
-/

namespace StateDiagram

inductive MachineError where
  | unknownState (state : Ident)
  | noTransition (state : Ident) (trigger : String)
  deriving DecidableEq, Repr

def MachineError.message : MachineError → String
  | .unknownState state =>
      let shown := state.display
      s!"State '{shown}' is not part of the diagram"
  | .noTransition state trigger =>
      let shown := state.display
      s!"No transition for trigger '{trigger}' from state '{shown}'"

structure Machine where
  table : Table
  start : Nat
  current : Nat
  state : Ident
  history : History
  deriving DecidableEq, Repr

namespace Machine

def ofStart (t : Table) (start : Ident) : Except MachineError Machine :=
  match t.position? start with
  | some position => .ok ⟨t, position, position, start, .empty⟩
  | none => .error (.unknownState start)

def dictionary? (m : Machine) : Option Dictionary := m.table.dictionary? m.current

def isTerminal (m : Machine) : Bool := (m.dictionary?.map Dictionary.isEmpty).getD true

def lookup? (m : Machine) (trigger : String) : Option (String × Entry) :=
  m.dictionary?.bind (·.lookup? trigger)

/-- The machine after the move that answers a trigger, and the entry that it took. -/
def advance (m : Machine) (trigger : String) (now : Timestamp) :
    Except MachineError (Machine × Entry) :=
  match m.lookup? trigger with
  | none => .error (.noTransition m.state trigger)
  | some (key, entry) =>
      match m.table.position? entry.next with
      | none => .error (.unknownState entry.next)
      | some next =>
          .ok ({ m with
            current := next
            state := entry.next
            history := m.history.record ⟨m.current, next, key, now⟩ }, entry)

variable {σ : Type}

/-- Moves and then runs the entry.  A machine that cannot move stays as it is, and nothing is
called. -/
def fire (run : Behaviors σ) (m : Machine) (trigger : String) (args : List Value)
    (now : Timestamp) : StateM σ (Except MachineError Value × Machine) :=
  match m.advance trigger now with
  | .error e => pure (.error e, m)
  | .ok (moved, entry) => do
      let output ← run.dispatch entry args
      pure (.ok output, moved)

def path (m : Machine) : List Ident := m.history.path.filterMap m.table.state?

end Machine

end StateDiagram
