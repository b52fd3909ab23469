import StateDiagram.Diagram.Line

/-!
# Lint

Reading stops at the first error; linting reports every line that is in error.
-/

namespace StateDiagram

namespace Line

/-- An event without a name could not be told from the default entry. -/
def anonymousEvent? (line : Line) : Option DiagramError :=
  match line.event with
  | some event => if event.label = "" then some (.anonymousEvent line.number) else none
  | none => none

end Line

namespace Source

def lint (source : Source) : List DiagramError :=
  source.parseEach.filterMap fun
    | .ok line => line.anonymousEvent?
    | .error e => some e

end Source

end StateDiagram
