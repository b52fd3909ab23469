import StateDiagram.Ident

/-!
# Tokens

What a diagram is made of, in whatever form it was written.
-/

namespace StateDiagram

inductive Token where
  | hole (ident : Ident)
  /-- Literal text, such as an arrow or the marker before an event. -/
  | word (text : String)
  | newline
  deriving DecidableEq, Repr

namespace Token

/-- How a token is shown in a message.  Nothing inside it is escaped. -/
def display : Token → String
  | .hole i => "$\x7b" ++ i.display ++ "\x7d"
  | .word w => "\"" ++ w ++ "\""
  | .newline => ""

end Token

end StateDiagram
