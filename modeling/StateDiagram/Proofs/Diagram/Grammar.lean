import StateDiagram.Proofs.Diagram.Faults

/-!
# The grammar of a diagram

What may stand on a line, and what is wrong with a line on which something else stands, is laid down
by rules over its tokens.  Reading a source applies them to the pieces between its line ends.
-/

namespace StateDiagram

/-! ## Pieces -/

section Pieces

variable {α : Type} [BEq α] [LawfulBEq α] {x y : α} {l piece : List α}

theorem mem_and_ne_of_mem_splitOn (hpiece : piece ∈ l.splitOn x) (hy : y ∈ piece) :
    y ∈ l ∧ y ≠ x := by
  induction l generalizing piece with
  | nil =>
      rw [List.splitOn_nil, List.mem_singleton] at hpiece
      simp [hpiece] at hy
  | cons a l ih =>
      rw [List.splitOn_cons_eq_if_modifyHead] at hpiece
      split at hpiece
      · rcases List.mem_cons.1 hpiece with rfl | hpiece
        · contradiction
        · exact (ih hpiece hy).imp_left (List.mem_cons_of_mem a)
      · next hne =>
          obtain ⟨first, rest, hsplit⟩ := List.exists_cons_of_ne_nil (List.splitOn_ne_nil x l)
          rw [hsplit] at ih hpiece
          rcases List.mem_cons.1 hpiece with rfl | hpiece
          · rcases List.mem_cons.1 hy with rfl | hy
            · exact ⟨List.mem_cons_self, by simpa using hne⟩
            · exact (ih List.mem_cons_self hy).imp_left (List.mem_cons_of_mem a)
          · exact (ih (List.mem_cons_of_mem first hpiece) hy).imp_left (List.mem_cons_of_mem a)

theorem not_mem_of_mem_splitOn (hpiece : piece ∈ l.splitOn x) : x ∉ piece :=
  fun hx => (mem_and_ne_of_mem_splitOn hpiece hx).2 rfl

end Pieces

/-! ## Arrows -/

namespace Arrow

def PointsRight (token : String) : Prop := ∃ before, token = before ++ "->"

def PointsLeft (token : String) : Prop := ∃ after, token = "<-" ++ after

/-- The directions of the arrow are those in which the token points. -/
structure Shows (arrow : Arrow) (token : String) : Prop where
  points : PointsRight token ∨ PointsLeft token
  toRight_iff : arrow.toRight = true ↔ PointsRight token
  toLeft_iff : arrow.toLeft = true ↔ PointsLeft token

variable {arrow : Arrow} {token : String}

theorem isSuffixOf_iff : "->".toList.isSuffixOf token.toList = true ↔ PointsRight token := by
  rw [List.isSuffixOf_iff_suffix]
  constructor
  · rintro ⟨before, hbefore⟩
    exact ⟨String.ofList before, String.toList_injective (by simp [← hbefore])⟩
  · rintro ⟨before, rfl⟩
    exact ⟨before.toList, String.toList_append.symm⟩

theorem isPrefixOf_iff : "<-".toList.isPrefixOf token.toList = true ↔ PointsLeft token := by
  rw [List.isPrefixOf_iff_prefix]
  constructor
  · rintro ⟨after, hafter⟩
    exact ⟨String.ofList after, String.toList_injective (by simp [← hafter])⟩
  · rintro ⟨after, rfl⟩
    exact ⟨after.toList, String.toList_append.symm⟩

theorem parse?_eq_some_iff : parse? token = some arrow ↔ arrow.Shows token := by
  obtain ⟨toRight, toLeft⟩ := arrow
  simp only [parse?, Option.ite_none_right_eq_some, Option.some.injEq, Arrow.mk.injEq,
    Bool.or_eq_true, isSuffixOf_iff, isPrefixOf_iff]
  constructor
  · rintro ⟨hpoints, rfl, rfl⟩
    exact ⟨hpoints, isSuffixOf_iff, isPrefixOf_iff⟩
  · rintro ⟨hpoints, hright, hleft⟩
    exact ⟨hpoints, Bool.eq_iff_iff.2 (isSuffixOf_iff.trans hright.symm),
      Bool.eq_iff_iff.2 (isPrefixOf_iff.trans hleft.symm)⟩

theorem parse?_eq_none_iff :
    parse? token = none ↔ ¬ (PointsRight token ∨ PointsLeft token) := by
  simp [parse?, ← isSuffixOf_iff, ← isPrefixOf_iff]

end Arrow

/-! ## One line -/

namespace Line

/-- How a line of that number is read.  A line that does not begin with two identifiers around a
word is malformed, whatever the word; after that the word has to be an arrow, whatever follows; only
then counts what follows. -/
inductive Reads (number : Nat) : List Token → Except DiagramError Line → Prop where
  | plain {left right : Ident} {token : String} {arrow : Arrow} (harrow : arrow.Shows token) :
      Reads number [.hole left, .word token, .hole right] (.ok ⟨number, arrow, left, right, none⟩)
  | gated {left right event : Ident} {token : String} {arrow : Arrow}
      (harrow : arrow.Shows token) :
      Reads number [.hole left, .word token, .hole right, .word "@", .hole event]
        (.ok ⟨number, arrow, left, right, some event⟩)
  | unbegun {tokens : List Token}
      (hbegin : ∀ left token right rest,
        tokens ≠ .hole left :: .word token :: .hole right :: rest) :
      Reads number tokens (.error (.malformed number tokens))
  | noArrow {left right : Ident} {token : String} {rest : List Token}
      (hpoints : ¬ (Arrow.PointsRight token ∨ Arrow.PointsLeft token)) :
      Reads number (.hole left :: .word token :: .hole right :: rest)
        (.error (.invalidArrow number token))
  | wordMarker {left right event : Ident} {token marker : String} {arrow : Arrow}
      (harrow : arrow.Shows token) (hmarker : marker ≠ "@") :
      Reads number [.hole left, .word token, .hole right, .word marker, .hole event]
        (.error (.invalidMarker number marker))
  | identMarker {left right marker event : Ident} {token : String} {arrow : Arrow}
      (harrow : arrow.Shows token) :
      Reads number [.hole left, .word token, .hole right, .hole marker, .hole event]
        (.error (.invalidMarker number marker.label))
  | unended {left right : Ident} {token : String} {arrow : Arrow} {rest : List Token}
      (harrow : arrow.Shows token) (hplain : rest ≠ [])
      (hword : ∀ marker event, rest ≠ [.word marker, .hole event])
      (hident : ∀ marker event, rest ≠ [.hole marker, .hole event]) :
      Reads number (.hole left :: .word token :: .hole right :: rest)
        (.error (.malformed number (.hole left :: .word token :: .hole right :: rest)))

variable {number : Nat} {tokens : List Token} {result : Except DiagramError Line}

theorem reads_ofTokens (number : Nat) (tokens : List Token) :
    Reads number tokens (ofTokens number tokens) := by
  unfold ofTokens
  split
  · next left token right rest =>
      cases hparse : Arrow.parse? token with
      | none => exact .noArrow (Arrow.parse?_eq_none_iff.1 hparse)
      | some arrow =>
          have harrow := Arrow.parse?_eq_some_iff.1 hparse
          simp only
          split
          · exact .plain harrow
          · next marker event =>
              split
              · next hmarker =>
                  subst hmarker
                  exact .gated harrow
              · next hmarker => exact .wordMarker harrow hmarker
          · exact .identMarker harrow
          · next hplain hword hident => exact .unended harrow hplain hword hident
  · next hbegin => exact .unbegun hbegin

theorem Reads.eq_ofTokens (h : Reads number tokens result) : ofTokens number tokens = result := by
  cases h with
  | plain harrow => simp [ofTokens, Arrow.parse?_eq_some_iff.2 harrow]
  | gated harrow => simp [ofTokens, Arrow.parse?_eq_some_iff.2 harrow]
  | unbegun hbegin =>
      unfold ofTokens
      split
      · next left token right rest => exact absurd rfl (hbegin left token right rest)
      · rfl
  | noArrow hpoints => simp [ofTokens, Arrow.parse?_eq_none_iff.2 hpoints]
  | wordMarker harrow hmarker => simp [ofTokens, Arrow.parse?_eq_some_iff.2 harrow, hmarker]
  | identMarker harrow => simp [ofTokens, Arrow.parse?_eq_some_iff.2 harrow]
  | unended harrow hplain hword hident =>
      simp only [ofTokens, Arrow.parse?_eq_some_iff.2 harrow]

end Line

/-! ## All lines -/

namespace Source

/-- These are the pieces of the source between its line ends, blank ones among them. -/
structure Cut (source : Source) (rows : List (List Token)) : Prop where
  ne_nil : rows ≠ []
  newline_not_mem : ∀ row ∈ rows, Token.newline ∉ row
  intercalate_eq : [Token.newline].intercalate rows = source

/-- The rows are read in order, the first with that number.  A blank row gives no result, but it
counts. -/
inductive ReadAll : Nat → List (List Token) → List (Except DiagramError Line) → Prop where
  | nil {number : Nat} : ReadAll number [] []
  | blank {number : Nat} {rows : List (List Token)} {results : List (Except DiagramError Line)}
      (hrest : ReadAll (number + 1) rows results) : ReadAll number ([] :: rows) results
  | line {number : Nat} {tokens : List Token} {rows : List (List Token)}
      {result : Except DiagramError Line} {results : List (Except DiagramError Line)}
      (hne : tokens ≠ []) (hline : Line.Reads number tokens result)
      (hrest : ReadAll (number + 1) rows results) :
      ReadAll number (tokens :: rows) (result :: results)

variable {source : Source} {rows : List (List Token)} {number : Nat}
  {results : List (Except DiagramError Line)}

theorem cut_iff : source.Cut rows ↔ rows = source.splitOn .newline := by
  constructor
  · rintro ⟨hne, hrows, rfl⟩
    exact (List.splitOn_intercalate Token.newline hrows hne).symm
  · rintro rfl
    exact ⟨List.splitOn_ne_nil _ _, fun _ => not_mem_of_mem_splitOn, List.intercalate_splitOn _⟩

theorem readAll_iff : ReadAll number rows results ↔
    (((rows.zipIdx number).filter fun (tokens, _) => !tokens.isEmpty).map
      fun (tokens, number) => Line.ofTokens number tokens) = results := by
  induction rows generalizing number results with
  | nil =>
      constructor
      · rintro ⟨⟩
        rfl
      · rintro rfl
        exact .nil
  | cons tokens rows ih =>
      rw [List.zipIdx_cons]
      cases tokens with
      | nil =>
          rw [List.filter_cons_of_neg (by simp), ← ih]
          constructor
          · intro h
            cases h with
            | blank hrest => exact hrest
            | line hne => contradiction
          · exact .blank
      | cons first tokens =>
          rw [List.filter_cons_of_pos (by simp), List.map_cons]
          constructor
          · intro h
            cases h with
            | line hne hline hrest => exact congrArg₂ List.cons hline.eq_ofTokens (ih.1 hrest)
          · rintro rfl
            exact .line (List.cons_ne_nil _ _) (Line.reads_ofTokens _ _) (ih.2 rfl)

/-- A source is cut at its line ends in one way.  Each piece that is not blank is read by the rules
with its own number, and these readings in order are all there is.  The whole source is read if
none of them is an error, and otherwise fails with the first one. -/
theorem parse_follows_grammar (source : Source) :
    ∃ rows, (∀ cut, source.Cut cut ↔ cut = rows) ∧
      (∀ results, source.parseEach = results ↔ ReadAll 1 rows results) ∧
      (∀ lines : List Line, source.parse = .ok lines ↔ source.parseEach = lines.map .ok) ∧
      ∀ e, source.parse = .error e ↔
        ∃ (lines : List Line) (rest : List (Except DiagramError Line)),
          source.parseEach = lines.map .ok ++ .error e :: rest :=
  ⟨source.splitOn .newline, fun _ => cut_iff, fun _ => readAll_iff.symm,
    fun _ => mapM_eq_ok_iff_map, fun _ => mapM_eq_error_iff_map⟩

end Source

end StateDiagram
