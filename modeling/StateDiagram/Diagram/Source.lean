import StateDiagram.Diagram.Error
import StateDiagram.Diagram.Symbols
import StateDiagram.Text.Alphanumeric
import StateDiagram.Text.Words

/-!
# Sources

A diagram is written as plain text, as a template of literal fragments around identifiers, or piece
by piece.  Every form comes down to one list of tokens.
-/

namespace StateDiagram

abbrev Source := List Token

namespace Source

/-! ## Plain text -/

/-- A word that is not registered and has no alphanumeric character is literal; any other word
stands for an identifier. -/
def wordToken (symbols : Symbols) (word : String) : Token :=
  if (symbols.get? word).isNone && !word.toList.any Text.isAlphanumeric then .word word
  else .hole (symbols.resolve word)

def lineTokens (symbols : Symbols) (line : List Char) : List Token :=
  (Text.words line).map fun word => wordToken symbols (String.ofList word)

def ofText (symbols : Symbols) (text : String) : Source :=
  (Text.lines text.toList).flatMap fun line => lineTokens symbols line ++ [.newline]

/-! ## Fragments and identifiers -/

/-- The trimmed text of one line of a fragment is a single word, if anything is left of it. -/
def trimmedWord (text : List Char) : List Token :=
  if (Text.trim text).isEmpty then [] else [.word (String.ofList (Text.trim text))]

/-- A blank fragment separates two lines, whatever blanks it holds; any other fragment keeps its
line feeds. -/
def ofFragment (text : String) : Source :=
  if (Text.trim text.toList).isEmpty then [.newline]
  else [Token.newline].intercalate ((text.toList.splitOn '\n').map trimmedWord)

inductive Piece where
  | fragment (text : String)
  | ident (ident : Ident)
  deriving DecidableEq, Repr

def Piece.tokens : Piece → List Token
  | .fragment text => ofFragment text
  | .ident i => [.hole i]

def ofPieces (pieces : List Piece) : Source := pieces.flatMap Piece.tokens

def interleave : List String → List Ident → List Piece
  | [], idents => idents.map .ident
  | f :: fragments, [] => .fragment f :: fragments.map .fragment
  | f :: fragments, i :: idents => .fragment f :: .ident i :: interleave fragments idents

def ofTemplate (fragments : List String) (idents : List Ident) : Except DiagramError Source :=
  if fragments.length = idents.length + 1 then .ok (ofPieces (interleave fragments idents))
  else .error (.templateShape fragments.length idents.length)

end Source

end StateDiagram
