import StateDiagram.Diagram.Lint
import StateDiagram.Table.Basic

/-!
# Building a table

Lines are added one after another.  Each direction of a line first gives its source a default entry;
an event then takes the default entry away again and leaves an entry under its label.
-/

namespace StateDiagram.Table

/-- Registers both ends of a move and makes it the default of its source. -/
def addDefault (t : Table) (move : Ident × Ident) : Table :=
  ((t.register move.1).register move.2).modify move.1
    (·.insert defaultKey (.leadingTo move.2 none))

/-- Puts a move under the label of its event in place of the default of its source. -/
def addNamed (event : Ident) (t : Table) (move : Ident × Ident) : Table :=
  t.modify move.1 fun d =>
    (d.erase defaultKey).insert event.label (.leadingTo move.2 (some event))

def addLine (t : Table) (line : Line) : Except DiagramError Table :=
  let t := line.moves.foldl addDefault t
  match line.event with
  | none => .ok t
  | some event =>
      if event.label = "" then .error (.anonymousEvent line.number)
      else .ok (line.moves.foldl (addNamed event) t)

def build (lines : List Line) : Except DiagramError Table := lines.foldlM addLine empty

def compile (source : Source) : Except DiagramError Table := do
  let lines ← source.parse
  build lines

end StateDiagram.Table
