import StateDiagram.Packed.Basic
import StateDiagram.TransitionMatrix

/-!
# Unpacking

A packed table may come from anywhere, so its shape, its row order and its cells are checked.
-/

namespace StateDiagram.PackedTable

/-- The first position of the list that is out of range or has been met before. -/
def firstFault? (rows : Nat) (seen : List Nat) : List Nat → Option RowOrderFault
  | [] => none
  | position :: rest =>
      if rows ≤ position then some (.outOfRange position)
      else if position ∈ seen then some (.repeated position)
      else firstFault? rows (position :: seen) rest

/-- What keeps the list from holding every position below `rows` exactly once. -/
def rowOrderFault? (positions : List Nat) (rows : Nat) : Option RowOrderFault :=
  if positions.length ≠ rows then some (.wrongLength positions.length rows)
  else firstFault? rows [] positions

def unpackCell (states cell : Nat) (value : UInt32) : Except PackError (Option Nat) :=
  if value = 0 then .ok none
  else if value.toNat - 1 < states then .ok (some (value.toNat - 1))
  else .error (.cellOutOfRange cell value states)

/-- The stored row at a position. -/
def unpackRow (p : PackedTable) (position : Nat) : Except PackError Row :=
  let width := p.legend.eventNames.length
  let start := position * width
  (((p.buffer.drop start).take width).zipIdx start).mapM fun (value, cell) =>
    unpackCell p.legend.stateNames.length cell value

/-- The rows in the order of the matrix.  Cells are checked in this order too. -/
def unpackRows (p : PackedTable) : Except PackError (List Row) :=
  p.legend.rowPositions.mapM p.unpackRow

def unpack (p : PackedTable) : Except PackError TransitionMatrix :=
  let states := p.legend.stateNames.length
  let expected := states * p.legend.eventNames.length
  if p.legend.layout = .strided then .error .unimplemented
  else if p.buffer.length ≠ expected then .error (.shapeMismatch expected p.buffer.length)
  else
    match rowOrderFault? p.legend.rowPositions states with
    | some fault => .error (.badRowOrder fault)
    | none => p.unpackRows.map TransitionMatrix.mk

end StateDiagram.PackedTable
