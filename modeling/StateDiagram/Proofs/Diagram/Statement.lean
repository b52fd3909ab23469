import Mathlib.Data.List.ReduceOption
import StateDiagram.Proofs.Table.Described

/-!
# Statements of a diagram

A diagram says where one state leads, statement by statement.  What a source says does not depend on
how its tokens came about or on which lines they stand.
-/

namespace StateDiagram

/-- The plain arrows. -/
inductive Sign where
  | right
  | left
  | both
  deriving DecidableEq, Repr

namespace Sign

def text : Sign → String
  | .right => "->"
  | .left => "<-"
  | .both => "<->"

def arrow : Sign → Arrow
  | .right => ⟨true, false⟩
  | .left => ⟨false, true⟩
  | .both => ⟨true, true⟩

@[simp] theorem parse?_text (sign : Sign) : Arrow.parse? sign.text = some sign.arrow := by
  cases sign <;> rfl

end Sign

def Line.unnumbered (line : Line) : Line := { line with number := 0 }

structure Statement where
  left : Ident
  sign : Sign
  right : Ident
  event : Option Ident
  deriving DecidableEq, Repr

namespace Statement

def tokens (s : Statement) : List Token :=
  [.hole s.left, .word s.sign.text, .hole s.right] ++
    match s.event with
    | none => []
    | some event => [.word "@", .hole event]

def line (s : Statement) (number : Nat) : Line := ⟨number, s.sign.arrow, s.left, s.right, s.event⟩

theorem tokens_ne_nil (s : Statement) : s.tokens ≠ [] := List.cons_ne_nil _ _

theorem newline_not_mem_tokens (s : Statement) : Token.newline ∉ s.tokens := by
  obtain ⟨left, sign, right, event⟩ := s
  cases event <;> simp [tokens]

theorem ofTokens_tokens (s : Statement) (number : Nat) :
    Line.ofTokens number s.tokens = .ok (s.line number) := by
  obtain ⟨left, sign, right, event⟩ := s
  cases event <;> simp [tokens, Line.ofTokens, line]

/-- The tokens of a line that makes a statement or none. -/
def tokensOf : Option Statement → List Token
  | none => []
  | some s => s.tokens

end Statement

namespace Source

/-- The source is read as these statements in this order, on whatever lines. -/
def Denotes (source : Source) (statements : List Statement) : Prop :=
  ∃ lines, source.parse = .ok lines ∧
    lines.map Line.unnumbered = statements.map (·.line 0)

theorem splitOn_newline {rows : List (List Token)} (h : ∀ row ∈ rows, Token.newline ∉ row) :
    (rows.flatMap fun row => row ++ [.newline]).splitOn .newline = rows ++ [[]] := by
  induction rows with
  | nil => rfl
  | cons row rows ih =>
      have hrow : row.splitOn .newline = [row] := List.splitOn_eq_singleton (h row (by simp))
      have hrest := ih fun r hr => h r (List.mem_cons_of_mem row hr)
      rw [List.splitOn] at hrow hrest ⊢
      rw [List.flatMap_cons, List.append_assoc, List.singleton_append,
        List.splitOnP_append_cons _ _ (by simp), hrow, hrest]
      rfl

/-- Empty lines are passed over, and every statement is read with the number of its line. -/
theorem exists_lines_of_rows (rows : List (Option Statement)) (first : Nat) :
    ∃ lines, (((rows.map Statement.tokensOf ++ [[]]).zipIdx first).filter
        fun (segment : List Token × Nat) => !segment.1.isEmpty).mapM
          (fun (segment : List Token × Nat) => Line.ofTokens segment.2 segment.1) = .ok lines ∧
      lines.map Line.unnumbered = rows.reduceOption.map (·.line 0) := by
  induction rows generalizing first with
  | nil => exact ⟨[], rfl, rfl⟩
  | cons row rows ih =>
      obtain ⟨lines, hread, hlines⟩ := ih (first + 1)
      cases row with
      | none => exact ⟨lines, hread, hlines⟩
      | some s =>
          refine ⟨s.line first :: lines, ?_, ?_⟩
          · rw [List.map_cons, List.cons_append, List.zipIdx_cons, List.filter_cons_of_pos
              (by simp [Statement.tokensOf, s.tokens_ne_nil]), List.mapM_cons, hread]
            simp only [Statement.tokensOf, s.ofTokens_tokens]
            rfl
          · rw [List.map_cons, hlines]
            rfl

theorem denotes_flatMap (rows : List (Option Statement)) :
    Denotes (rows.flatMap fun row => Statement.tokensOf row ++ [.newline]) rows.reduceOption := by
  have hrows : ∀ tokens ∈ rows.map Statement.tokensOf, Token.newline ∉ tokens := by
    intro tokens htokens
    obtain ⟨row, -, rfl⟩ := List.mem_map.1 htokens
    cases row with
    | none => exact List.not_mem_nil
    | some s => exact s.newline_not_mem_tokens
  have hsplit := splitOn_newline hrows
  rw [List.flatMap_map] at hsplit
  rw [Denotes, parse, segments, hsplit]
  exact exists_lines_of_rows rows 1

end Source

/-! ## Compiling -/

namespace Table

theorem compile_eq_build {source : Source} {lines : List Line} (h : source.parse = .ok lines) :
    compile source = build lines := by
  rw [compile, h]
  rfl

/-- Sources of the same statements compile to the same table or are refused alike. -/
theorem compile_of_denotes {source : Source} {statements : List Statement}
    (h : source.Denotes statements) :
    let lines := statements.map (·.line 0)
    if lines.any Line.isAnonymous then
      ∃ n, compile source = .error (.anonymousEvent n)
    else compile source = .ok (described lines) := by
  obtain ⟨lines, hparse, hlines⟩ := h
  have hdescribed : described (lines.map Line.unnumbered) = described lines := by
    simp only [described, List.flatMap_map, List.filterMap_map]
    rfl
  have hany : (lines.map Line.unnumbered).any Line.isAnonymous =
      lines.any Line.isAnonymous := by
    simp only [List.any_map]
    rfl
  simp only [← hlines, hdescribed, hany, compile_eq_build hparse]
  cases hfind : lines.find? Line.isAnonymous with
  | none =>
      have hnone : ∀ line ∈ lines, line.isAnonymous = false := by simpa using hfind
      rw [if_neg (by simpa using hfind), build_eq_ok_described hnone]
  | some line =>
      have hsome : lines.any Line.isAnonymous = true :=
        List.any_eq_true.2 ⟨line, List.mem_of_find?_eq_some hfind, List.find?_some hfind⟩
      rw [if_pos hsome, build_of_find?_isAnonymous hfind]
      exact ⟨line.number, rfl⟩

end Table

end StateDiagram
