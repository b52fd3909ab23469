import StateDiagram.Table.Basic

/-!
# Statistics of a table

The out-degree of a state counts its default entry too.
-/

namespace StateDiagram

structure Stats where
  events : Nat
  hasDefault : Bool
  states : Nat
  terminalStates : Nat
  maxOutDegree : Nat
  minOutDegree : Nat
  deriving DecidableEq, Repr

namespace Stats

/-- Both degree bounds of an empty table are zero. -/
def ofTable (t : Table) : Stats :=
  let dictionaries := t.rows.map Prod.snd
  let degrees := dictionaries.map Dictionary.size
  { events := (t.namedEntries.filterMap Entry.event).eraseDups.length
    hasDefault := dictionaries.any fun d => d.default?.isSome
    states := t.size
    terminalStates := dictionaries.countP Dictionary.isEmpty
    maxOutDegree := degrees.max?.getD 0
    minOutDegree := degrees.min?.getD 0 }

end Stats

end StateDiagram
