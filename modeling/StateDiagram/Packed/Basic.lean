/-!
# Packed tables

A transition matrix flattened into one buffer of 32-bit cells, with the legend needed to read it:
the names of the states and events, and where each row went.  A cell holds the index of the next
state plus one, so that zero means "no transition".
-/

namespace StateDiagram

inductive Layout where
  /-- Every row has one cell for each event. -/
  | fixedWidth
  /-- Rows of different lengths; no format is defined for it yet. -/
  | strided
  deriving DecidableEq, Repr

structure PackOptions where
  layout : Layout
  /-- Length of the random token that names an anonymous identifier. -/
  tokenLength : Nat
  deriving DecidableEq, Repr

namespace PackOptions

def standard : PackOptions := ⟨.fixedWidth, 8⟩

end PackOptions

inductive SymbolKind where
  | state
  | event
  deriving DecidableEq, Repr

/-- Distinct identifiers of one kind that have the same name. -/
structure NameConflict where
  kind : SymbolKind
  name : String
  indices : List Nat
  deriving DecidableEq, Repr

structure Legend where
  layout : Layout
  stateNames : List String
  eventNames : List String
  /-- For each row of the matrix, its position among the stored rows. -/
  rowPositions : List Nat
  conflicts : List NameConflict
  deriving DecidableEq, Repr

namespace Legend

def stateName? (legend : Legend) (n : Nat) : Option String := legend.stateNames[n]?

def eventName? (legend : Legend) (n : Nat) : Option String := legend.eventNames[n]?

end Legend

structure PackedTable where
  buffer : List UInt32
  legend : Legend
  deriving DecidableEq, Repr

/-- What keeps a list from being an order of the rows. -/
inductive RowOrderFault where
  | wrongLength (entries rows : Nat)
  | repeated (position : Nat)
  | outOfRange (position : Nat)
  deriving DecidableEq, Repr

inductive PackError where
  /-- The layout has no format. -/
  | unimplemented
  /-- The next state's index is too large for a cell. -/
  | overflow (next : Nat)
  /-- The legend calls for another number of cells. -/
  | shapeMismatch (expected found : Nat)
  | badRowOrder (fault : RowOrderFault)
  | cellOutOfRange (cell : Nat) (value : UInt32) (states : Nat)
  deriving DecidableEq, Repr

def RowOrderFault.message : RowOrderFault → String
  | .wrongLength entries rows => s!"{entries} entries for {rows} rows"
  | .repeated position => s!"position {position} appears twice"
  | .outOfRange position => s!"position {position} is out of range"

def PackError.message : PackError → String
  | .unimplemented => "Not implemented: stride-packed layout"
  | .overflow next => s!"State index {next} does not fit in a u32 cell"
  | .shapeMismatch expected found =>
      s!"Buffer holds {found} cells, source map expects {expected}"
  | .badRowOrder fault => "Invalid row permutation: " ++ fault.message
  | .cellOutOfRange cell value states =>
      s!"Cell {cell} points to state {value}, but only {states} states exist"

end StateDiagram
