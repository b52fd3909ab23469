import StateDiagram.Diagram.Token

/-!
# Errors of a diagram

Lines are numbered from one.
-/

namespace StateDiagram

inductive DiagramError where
  | invalidArrow (line : Nat) (token : String)
  | invalidMarker (line : Nat) (token : String)
  /-- The line's tokens do not form identifiers around an arrow and a marker. -/
  | malformed (line : Nat) (found : List Token)
  /-- The event's label is empty, which is the key of the default entry. -/
  | anonymousEvent (line : Nat)
  | templateShape (fragments idents : Nat)
  deriving DecidableEq, Repr

namespace DiagramError

def line? : DiagramError → Option Nat
  | .invalidArrow n _ | .invalidMarker n _ | .malformed n _ | .anonymousEvent n => some n
  | .templateShape _ _ => none

/-- The token at fault, where it is a single one. -/
def token? : DiagramError → Option String
  | .invalidArrow _ t | .invalidMarker _ t => some t
  | _ => none

def message : DiagramError → String
  | .invalidArrow n t => s!"line {n}: found \"{t}\" instead of \"->\", \"<-\", or \"<->\""
  | .invalidMarker n t => s!"line {n}: found \"{t}\" instead of \"@\""
  | .malformed n found =>
      let shown := " ".intercalate (found.map Token.display)
      s!"line {n}: expected `IDENT ARROW IDENT [@ IDENT]`, found {shown}"
  | .anonymousEvent n =>
      s!"line {n}: event has an empty name and would shadow the default transition"
  | .templateShape f i => s!"template has {f} fragments for {i} identifiers"

end DiagramError

end StateDiagram
