import StateDiagram.Machine

/-!
# Checkpoints

A checkpoint says where a machine is and how it came there.  States are recorded by position, so the
table has to be given again to resume, and it may be another one: positions and label are checked.
-/

namespace StateDiagram

def checkpointVersion : UInt32 := 1

structure Checkpoint where
  version : UInt32
  id : String
  time : Timestamp
  start : Nat
  current : Nat
  currentLabel : String
  history : History
  deriving DecidableEq, Repr

inductive ResumeError where
  | unsupportedVersion (found : UInt32)
  | historyOutOfRange (source target states : Nat)
  | positionOutOfRange (position states : Nat)
  | labelMismatch (position : Nat) (expected found : String)
  deriving DecidableEq, Repr

def ResumeError.message : ResumeError → String
  | .unsupportedVersion found =>
      s!"checkpoint version {found} is not supported (expected {checkpointVersion})"
  | .historyOutOfRange source target states =>
      s!"history entry {source} -> {target} is outside a table of {states} states"
  | .positionOutOfRange position states =>
      s!"position {position} is outside a table of {states} states"
  | .labelMismatch position expected found =>
      s!"state at position {position} is '{found}', checkpoint recorded '{expected}'"

namespace Machine

def checkpoint (m : Machine) (id : String) (now : Timestamp) : Checkpoint :=
  ⟨checkpointVersion, id, now, m.start, m.current, m.state.label, m.history⟩

/-- The machine that a checkpoint describes, on a table that fits it.  Nothing ties the steps of
its history to each other or to the entries of the table. -/
def resume (t : Table) (c : Checkpoint) : Except ResumeError Machine :=
  if c.version ≠ checkpointVersion then .error (.unsupportedVersion c.version)
  else
    match c.history.steps.find? fun s => t.size ≤ s.source || t.size ≤ s.target with
    | some step => .error (.historyOutOfRange step.source step.target t.size)
    | none =>
        if t.size ≤ c.start then .error (.positionOutOfRange c.start t.size)
        else
          match t.state? c.current with
          | none => .error (.positionOutOfRange c.current t.size)
          | some state =>
              if state.label = c.currentLabel then
                .ok ⟨t, c.start, c.current, state, c.history⟩
              else .error (.labelMismatch c.current c.currentLabel state.label)

end Machine

end StateDiagram
