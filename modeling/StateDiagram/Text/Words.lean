import StateDiagram.Text.Blank

/-!
# Lines and words

A text is cut into lines at line feeds only, and a line into words at blanks.  A carriage return is
a blank, so a line that ends with one has the same words without it.
-/

namespace StateDiagram.Text

/-- The lines of a text.  A final line feed ends the last line and opens no further one. -/
def lines (text : List Char) : List (List Char) :=
  let pieces := text.splitOn '\n'
  if pieces.getLast? = some [] then pieces.dropLast else pieces

def words (line : List Char) : List (List Char) :=
  (line.splitOnP isBlank).filter fun word => !word.isEmpty

@[simp] theorem words_nil : words [] = [] := rfl

theorem words_append_cons {c : Char} (h : isBlank c = true) (before after : List Char) :
    words (before ++ c :: after) = words before ++ words after := by
  simp [words, List.splitOnP_append_cons before after h]

theorem words_of_forall_not_blank {word : List Char} (hne : word ≠ [])
    (h : ∀ c ∈ word, isBlank c = false) : words word = [word] := by
  simp [words, List.splitOnP_eq_singleton h, hne]

end StateDiagram.Text
