import StateDiagram.Packed.Names
import StateDiagram.TransitionMatrix

/-!
# Packing

Rows are stored in ascending order of their numbers of transitions; rows with equal numbers keep
their order.
-/

namespace StateDiagram

namespace TransitionMatrix

/-- The row numbers in the order in which the rows are stored. -/
def storedOrder (m : TransitionMatrix) : List Nat :=
  (m.rows.zipIdx.mergeSort fun a b => a.1.setCells ≤ b.1.setCells).map Prod.snd

/-- The rows in the order in which they are stored. -/
def storedRows (m : TransitionMatrix) : List Row :=
  (m.rows.zipIdx.mergeSort fun a b => a.1.setCells ≤ b.1.setCells).map Prod.fst

/-- For each row, where it is stored. -/
def rowPositions (m : TransitionMatrix) : List Nat :=
  (List.range m.size).map fun row => m.storedOrder.idxOf row

end TransitionMatrix

namespace PackedTable

/-- The number that stands for the next state.  The addition is that of 64-bit words, so the
largest word comes round to the zero of an absent cell. -/
def storedNumber (next : Nat) : Nat := (next + 1) % UInt64.size

def packCell : Option Nat → Except PackError UInt32
  | none => .ok 0
  | some next =>
      if storedNumber next < UInt32.size then .ok (UInt32.ofNat (storedNumber next))
      else .error (.overflow next)

def packCells (cells : List (Option Nat)) : Except PackError (List UInt32) := cells.mapM packCell

/-- The names come from the index table and the row order from the matrix. -/
def legendOf (options : PackOptions) (tokens : NameTokens) (m : TransitionMatrix)
    (index : Index) : Legend :=
  let stateNames := options.names tokens .state index.states
  let eventNames := options.names tokens .event index.events
  { layout := options.layout
    stateNames
    eventNames
    rowPositions := m.rowPositions
    conflicts := nameConflicts .state stateNames ++ nameConflicts .event eventNames }

/-- Packs a matrix with the names of an index table, whatever the sizes of the two are. -/
def pack (options : PackOptions) (tokens : NameTokens) (m : TransitionMatrix) (index : Index) :
    Except PackError PackedTable :=
  match options.layout with
  | .strided => .error .unimplemented
  | .fixedWidth =>
      (packCells m.storedRows.flatten).map fun buffer =>
        ⟨buffer, legendOf options tokens m index⟩

end PackedTable

/-- Packs the matrix of a table. -/
def Table.pack (options : PackOptions) (tokens : NameTokens) (t : Table) :
    Except PackError PackedTable :=
  PackedTable.pack options tokens t.matrix t.index

end StateDiagram
