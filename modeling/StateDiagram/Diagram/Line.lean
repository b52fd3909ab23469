import StateDiagram.Diagram.Source

/-!
# Lines

The grammar of a line is `IDENT ARROW IDENT [@ IDENT]`.  Tokens are cut into lines at line ends;
lines are numbered from one and empty ones are skipped.
-/

namespace StateDiagram

structure Arrow where
  toRight : Bool
  toLeft : Bool
  deriving DecidableEq, Repr

namespace Arrow

/-- An arrow points right if it ends with `->` and left if it starts with `<-`. -/
def parse? (token : String) : Option Arrow :=
  let arrow : Arrow :=
    ⟨"->".toList.isSuffixOf token.toList, "<-".toList.isPrefixOf token.toList⟩
  if arrow.toRight || arrow.toLeft then some arrow else none

def isBidirectional (arrow : Arrow) : Bool := arrow.toRight && arrow.toLeft

end Arrow

structure Line where
  number : Nat
  arrow : Arrow
  left : Ident
  right : Ident
  /-- What gates the transition, for a line with a marker. -/
  event : Option Ident
  deriving DecidableEq, Repr

namespace Line

/-- The source and the target of each direction of the arrow. -/
def moves (line : Line) : List (Ident × Ident) :=
  (if line.arrow.toRight then [(line.left, line.right)] else []) ++
    (if line.arrow.toLeft then [(line.right, line.left)] else [])

/-- Reads the tokens of one line.  A marker without a sign is read as an identifier. -/
def ofTokens (number : Nat) (tokens : List Token) : Except DiagramError Line :=
  match tokens with
  | .hole left :: .word token :: .hole right :: rest =>
      match Arrow.parse? token with
      | none => .error (.invalidArrow number token)
      | some arrow =>
          match rest with
          | [] => .ok ⟨number, arrow, left, right, none⟩
          | [.word marker, .hole event] =>
              if marker = "@" then .ok ⟨number, arrow, left, right, some event⟩
              else .error (.invalidMarker number marker)
          | [.hole marker, .hole _] => .error (.invalidMarker number marker.label)
          | _ => .error (.malformed number tokens)
  | _ => .error (.malformed number tokens)

end Line

namespace Source

/-- The lines that hold a token, each with its number. -/
def segments (source : Source) : List (List Token × Nat) :=
  ((source.splitOn .newline).zipIdx 1).filter fun (tokens, _) => !tokens.isEmpty

def parseEach (source : Source) : List (Except DiagramError Line) :=
  source.segments.map fun (tokens, number) => Line.ofTokens number tokens

def parse (source : Source) : Except DiagramError (List Line) :=
  source.segments.mapM fun (tokens, number) => Line.ofTokens number tokens

end Source

end StateDiagram
