import StateDiagram.Proofs.Diagram.Forms
import StateDiagram.Proofs.Diagram.Grammar

/-!
# Line numbers of a template

The fragments of a template make up a text with the identifiers in between, and each token stands on
a line of that text.  Lines are numbered by the line ends among the tokens.  A blank fragment gives
one line end, whatever line feeds it holds, so a line has the number under which it stands exactly
where the blank fragments before it hold as many line feeds as there are of them.
-/

namespace StateDiagram

theorem count_intercalate {α : Type} [BEq α] [LawfulBEq α] {x : α} {pieces : List (List α)}
    (h : ∀ piece ∈ pieces, x ∉ piece) :
    ([x].intercalate pieces).count x = pieces.length - 1 := by
  induction pieces with
  | nil => rfl
  | cons piece pieces ih =>
      rw [List.forall_mem_cons] at h
      cases pieces with
      | nil => simpa [List.count_eq_zero] using h.1
      | cons next pieces =>
          rw [List.intercalate_cons_cons, List.count_append, ih h.2]
          simp [List.count_eq_zero.2 h.1, Nat.add_comm]

namespace Source

/-! ## Tokens and the numbers of their lines -/

/-- The tokens other than line ends, each with the number of its line. -/
def numbered : Nat → List Token → List (Token × Nat)
  | _, [] => []
  | number, .newline :: source => numbered (number + 1) source
  | number, .hole i :: source => (.hole i, number) :: numbered number source
  | number, .word w :: source => (.word w, number) :: numbered number source

/-- The tokens of one line, each with its number. -/
def withNumber (segment : List Token × Nat) : List (Token × Nat) :=
  segment.1.map (·, segment.2)

theorem numbered_append (number : Nat) (source rest : List Token) :
    numbered number (source ++ rest) =
      numbered number source ++ numbered (number + source.count .newline) rest := by
  induction source generalizing number with
  | nil => rfl
  | cons token source ih =>
      cases token with
      | newline => simp [numbered, ih, Nat.add_comm, Nat.add_left_comm]
      | hole i => simp [numbered, ih]
      | word w => simp [numbered, ih]

theorem numbered_of_newline_not_mem (number : Nat) {row : List Token}
    (h : Token.newline ∉ row) : numbered number row = withNumber (row, number) := by
  induction row with
  | nil => rfl
  | cons token row ih =>
      rw [List.mem_cons, not_or] at h
      cases token with
      | newline => exact absurd rfl h.1
      | hole i =>
          rw [numbered, ih h.2]
          rfl
      | word w =>
          rw [numbered, ih h.2]
          rfl

theorem numbered_intercalate (number : Nat) {rows : List (List Token)}
    (h : ∀ row ∈ rows, Token.newline ∉ row) :
    numbered number ([Token.newline].intercalate rows) =
      (rows.zipIdx number).flatMap withNumber := by
  induction rows generalizing number with
  | nil => rfl
  | cons row rows ih =>
      rw [List.forall_mem_cons] at h
      rw [List.zipIdx_cons, List.flatMap_cons, ← ih (number + 1) h.2,
        ← numbered_of_newline_not_mem number h.1]
      cases rows with
      | nil => simp [numbered]
      | cons next rows =>
          rw [List.intercalate_cons_cons, List.append_assoc, numbered_append,
            List.count_eq_zero.2 h.1]
          rfl

theorem flatMap_filter_isEmpty (rows : List (List Token × Nat)) :
    (rows.filter fun (tokens, _) => !tokens.isEmpty).flatMap withNumber =
      rows.flatMap withNumber := by
  induction rows with
  | nil => rfl
  | cons row rows ih =>
      obtain ⟨row, number⟩ := row
      cases row with
      | nil => simpa [withNumber] using ih
      | cons token row => simpa using ih

theorem flatMap_segments (source : Source) :
    source.segments.flatMap withNumber = numbered 1 source := by
  rw [segments, flatMap_filter_isEmpty,
    ← numbered_intercalate 1 fun _ => not_mem_of_mem_splitOn, List.intercalate_splitOn]

/-! ## Where tokens stand -/

/-- Where a token stands in a template: behind the fragments before its own, and as a word also
behind some text of its own fragment. -/
structure Standing where
  token : Token
  fragments : List String
  before : List Char

/-- How many line ends the fragments count for. -/
def lineEnds : List String → Nat
  | [] => 0
  | fragment :: fragments =>
      (if Text.AllBlank fragment.toList then 1 else fragment.toList.count '\n') +
        lineEnds fragments

theorem lineEnds_append (fragments more : List String) :
    lineEnds (fragments ++ more) = lineEnds fragments + lineEnds more := by
  induction fragments with
  | nil => rw [List.nil_append, lineEnds, Nat.zero_add]
  | cons fragment fragments ih => rw [List.cons_append, lineEnds, ih, lineEnds, Nat.add_assoc]

namespace Standing

/-- The line of the template, by the line feeds in the text before the token. -/
def line (s : Standing) : Nat := 1 + (s.fragments.flatMap String.toList ++ s.before).count '\n'

/-- The line as the tokens have it. -/
def counted (s : Standing) : Nat := 1 + lineEnds s.fragments + s.before.count '\n'

def numbered (s : Standing) : Token × Nat := (s.token, s.counted)

def blanks (s : Standing) : List String := s.fragments.filter fun f => Text.AllBlank f.toList

theorem counted_add (s : Standing) :
    s.counted + (s.blanks.flatMap String.toList).count '\n' = s.line + s.blanks.length := by
  obtain ⟨token, fragments, before⟩ := s
  simp only [counted, line, blanks]
  induction fragments with
  | nil => simp [lineEnds]
  | cons fragment fragments ih =>
      by_cases hblank : Text.AllBlank fragment.toList
      · simp [lineEnds, hblank] at ih ⊢
        omega
      · simp [lineEnds, hblank] at ih ⊢
        omega

theorem counted_eq_line_iff (s : Standing) : s.counted = s.line ↔
    (s.blanks.flatMap String.toList).count '\n' = s.blanks.length := by
  have hadd := s.counted_add
  omega

end Standing

/-- The words of the lines of a fragment. -/
def wordsOf (fragments : List String) (before : List Char) : List (List Char) → List Standing
  | [] => []
  | line :: lines =>
      (trimmedWord line).map (⟨·, fragments, before ++ line.takeWhile Text.isBlank⟩) ++
        wordsOf fragments (before ++ line ++ ['\n']) lines

/-- The tokens of a template in order, with the fragments before the first piece. -/
def standings (fragments : List String) : List Piece → List Standing
  | [] => []
  | .ident i :: pieces => ⟨.hole i, fragments, []⟩ :: standings fragments pieces
  | .fragment text :: pieces =>
      wordsOf fragments [] (text.toList.splitOn '\n') ++ standings (fragments ++ [text]) pieces

def fragmentsOf (pieces : List Piece) : List String :=
  pieces.filterMap fun
    | .fragment text => some text
    | .ident _ => none

/-- The token is found there. -/
inductive StandsIn (pieces : List Piece) : Standing → Prop where
  | ident {done rest : List Piece} {i : Ident} (hpieces : pieces = done ++ .ident i :: rest) :
      StandsIn pieces ⟨.hole i, fragmentsOf done, []⟩
  | word {done rest : List Piece} {text word : String} {before after : List Char}
      (hpieces : pieces = done ++ .fragment text :: rest)
      (htext : text.toList = before ++ word.toList ++ after) :
      StandsIn pieces ⟨.word word, fragmentsOf done, before⟩

theorem exists_of_mem_trimmedWord {line : List Char} {token : Token}
    (h : token ∈ trimmedWord line) :
    ∃ word after, token = .word word ∧
      line = line.takeWhile Text.isBlank ++ word.toList ++ after := by
  obtain ⟨after, -, hline⟩ := Text.exists_eq_append_trim line
  rw [trimmedWord] at h
  split at h
  · contradiction
  · exact ⟨_, after, List.mem_singleton.1 h, by rwa [String.toList_ofList]⟩

theorem exists_intercalate_cons (line : List Char) (lines : List (List Char)) :
    ∃ rest, ['\n'].intercalate (line :: lines) = line ++ rest ∧
      (lines ≠ [] → rest = '\n' :: ['\n'].intercalate lines) := by
  cases lines with
  | nil => exact ⟨[], by simp⟩
  | cons next lines =>
      refine ⟨'\n' :: ['\n'].intercalate (next :: lines), ?_, fun _ => rfl⟩
      rw [List.intercalate_cons_cons, List.append_assoc, List.singleton_append]

theorem exists_of_mem_wordsOf {fragments : List String} {before : List Char}
    {lines : List (List Char)} {s : Standing} (hs : s ∈ wordsOf fragments before lines) :
    ∃ word after, s.token = .word word ∧ s.fragments = fragments ∧
      before ++ ['\n'].intercalate lines = s.before ++ word.toList ++ after := by
  induction lines generalizing before with
  | nil => contradiction
  | cons line lines ih =>
      obtain ⟨rest, hrest, hlines⟩ := exists_intercalate_cons line lines
      rw [hrest]
      rcases List.mem_append.1 hs with hs | hs
      · obtain ⟨token, htoken, rfl⟩ := List.mem_map.1 hs
        obtain ⟨word, after, rfl, hline⟩ := exists_of_mem_trimmedWord htoken
        refine ⟨word, after ++ rest, rfl, rfl, ?_⟩
        calc before ++ (line ++ rest)
            = before ++ (line.takeWhile Text.isBlank ++ word.toList ++ after ++ rest) := by
              rw [← hline]
          _ = _ := by simp
      · have hne : lines ≠ [] := by
          rintro rfl
          contradiction
        obtain ⟨word, after, htoken, hfragments, htext⟩ := ih hs
        refine ⟨word, after, htoken, hfragments, ?_⟩
        rw [← htext, hlines hne]
        simp

theorem standsIn_of_mem_standings {done pieces : List Piece} {s : Standing}
    (hs : s ∈ standings (fragmentsOf done) pieces) : StandsIn (done ++ pieces) s := by
  induction pieces generalizing done with
  | nil => contradiction
  | cons piece pieces ih =>
      have hstep := @ih (done ++ [piece])
      rw [List.append_assoc, List.singleton_append] at hstep
      cases piece with
      | ident i =>
          rcases List.mem_cons.1 hs with rfl | hs
          · exact .ident rfl
          · exact hstep (by simpa [fragmentsOf] using hs)
      | fragment text =>
          rcases List.mem_append.1 hs with hs | hs
          · obtain ⟨word, after, htoken, hfragments, htext⟩ := exists_of_mem_wordsOf hs
            obtain ⟨token, fragments, before⟩ := s
            subst htoken hfragments
            rw [List.nil_append, List.intercalate_splitOn] at htext
            exact .word rfl htext
          · exact hstep (by simpa [fragmentsOf] using hs)

/-! ## Tokens of a template -/

theorem newline_not_mem_trimmedWord (line : List Char) : Token.newline ∉ trimmedWord line := by
  intro h
  obtain ⟨word, after, hword, -⟩ := exists_of_mem_trimmedWord h
  contradiction

theorem map_wordsOf {fragments : List String} {before : List Char} {lines : List (List Char)}
    (h : ∀ line ∈ lines, '\n' ∉ line) :
    (wordsOf fragments before lines).map Standing.numbered =
      ((lines.map trimmedWord).zipIdx
        (1 + lineEnds fragments + before.count '\n')).flatMap withNumber := by
  induction lines generalizing before with
  | nil => rfl
  | cons line lines ih =>
      rw [List.forall_mem_cons] at h
      have hindent : (line.takeWhile Text.isBlank).count '\n' = 0 :=
        List.count_eq_zero.2 fun hmem => h.1 (List.takeWhile_subset _ hmem)
      rw [wordsOf, List.map_append, ih h.2, List.map_cons, List.zipIdx_cons, List.flatMap_cons,
        List.map_map]
      simp [Standing.numbered, Standing.counted, withNumber, Function.comp_def, hindent,
        List.count_eq_zero.2 h.1, Nat.add_assoc]

theorem wordsOf_of_blank {fragments : List String} {before : List Char}
    {lines : List (List Char)} (h : ∀ line ∈ lines, Text.AllBlank line) :
    wordsOf fragments before lines = [] := by
  induction lines generalizing before with
  | nil => rfl
  | cons line lines ih =>
      rw [List.forall_mem_cons] at h
      simp [wordsOf, trimmedWord, Text.trim_of_blank h.1, ih h.2]

theorem ofFragment_of_not_blank {text : String} (h : ¬ Text.AllBlank text.toList) :
    ofFragment text = [Token.newline].intercalate ((text.toList.splitOn '\n').map trimmedWord) := by
  rw [ofFragment, if_neg]
  rwa [List.isEmpty_iff, Text.trim_eq_nil_iff]

theorem newline_not_mem_of_mem_map_trimmedWord {lines : List (List Char)} :
    ∀ row ∈ lines.map trimmedWord, Token.newline ∉ row :=
  List.forall_mem_map.2 fun line _ => newline_not_mem_trimmedWord line

theorem count_ofFragment (text : String) : (ofFragment text).count .newline = lineEnds [text] := by
  by_cases hblank : Text.AllBlank text.toList
  · simp [ofFragment_of_blank hblank, lineEnds, hblank]
  · have hfeeds : (text.toList.splitOn '\n').length - 1 = text.toList.count '\n' := by
      rw [← count_intercalate fun _ => not_mem_of_mem_splitOn, List.intercalate_splitOn]
    rw [ofFragment_of_not_blank hblank, lineEnds, lineEnds, if_neg hblank, Nat.add_zero,
      count_intercalate newline_not_mem_of_mem_map_trimmedWord, List.length_map, hfeeds]

theorem numbered_ofFragment (fragments : List String) (text : String) :
    numbered (1 + lineEnds fragments) (ofFragment text) =
      (wordsOf fragments [] (text.toList.splitOn '\n')).map Standing.numbered := by
  by_cases hblank : Text.AllBlank text.toList
  · have hlines : ∀ line ∈ text.toList.splitOn '\n', Text.AllBlank line :=
      fun _ hline c hc => hblank c (mem_and_ne_of_mem_splitOn hline hc).1
    rw [ofFragment_of_blank hblank, wordsOf_of_blank hlines]
    rfl
  · rw [ofFragment_of_not_blank hblank, map_wordsOf fun _ => not_mem_of_mem_splitOn,
      numbered_intercalate _ newline_not_mem_of_mem_map_trimmedWord]
    rfl

theorem numbered_ofPieces (fragments : List String) (pieces : List Piece) :
    numbered (1 + lineEnds fragments) (ofPieces pieces) =
      (standings fragments pieces).map Standing.numbered := by
  induction pieces generalizing fragments with
  | nil => rfl
  | cons piece pieces ih =>
      rw [ofPieces, List.flatMap_cons, ← ofPieces]
      cases piece with
      | ident i =>
          rw [standings, List.map_cons, ← ih]
          rfl
      | fragment text =>
          have hrest := ih (fragments ++ [text])
          rw [lineEnds_append, ← Nat.add_assoc] at hrest
          rw [Piece.tokens, numbered_append, numbered_ofFragment, count_ofFragment, hrest,
            standings, List.map_append]

/-- Tokens that are read together as one line. -/
structure Row where
  first : Standing
  rest : List Standing

namespace Row

def standings (row : Row) : List Standing := row.first :: row.rest

def tokens (row : Row) : List Token := row.standings.map Standing.token

end Row

/-- Tokens that stand in this order belong to the segments one after another. -/
theorem exists_rows {segments : List (List Token × Nat)} {found : List Standing}
    (hne : ∀ segment ∈ segments, segment.1 ≠ [])
    (h : segments.flatMap withNumber = found.map Standing.numbered) :
    ∃ rows : List Row, rows.flatMap Row.standings = found ∧
      segments = rows.map fun row => (row.tokens, row.first.counted) := by
  induction segments generalizing found with
  | nil =>
      rw [List.flatMap_nil, eq_comm, List.map_eq_nil_iff] at h
      exact ⟨[], h.symm, rfl⟩
  | cons segment segments ih =>
      obtain ⟨tokens, number⟩ := segment
      rw [List.forall_mem_cons] at hne
      rw [List.flatMap_cons, eq_comm, List.map_eq_append_iff] at h
      obtain ⟨own, others, rfl, hown, hothers⟩ := h
      obtain ⟨rows, hfound, hsegments⟩ := ih hne.2 hothers.symm
      have htokens : own.map Standing.token = tokens := by
        have hfst := congrArg (List.map Prod.fst) hown
        simpa [Standing.numbered, withNumber, Function.comp_def] using hfst
      cases own with
      | nil => exact absurd htokens.symm hne.1
      | cons first rest =>
          have hcounted : first.counted = number := by
            have hmem : first.numbered ∈ withNumber (tokens, number) := hown ▸ List.mem_cons_self
            obtain ⟨_, -, heq⟩ := List.mem_map.1 hmem
            exact (Prod.mk.inj heq).2.symm
          subst htokens hcounted
          refine ⟨⟨first, rest⟩ :: rows, by rw [List.flatMap_cons, hfound]; rfl, ?_⟩
          exact congrArg (List.cons _) hsegments

/-- The number under which a line or its error is reported. -/
def reported? : Except DiagramError Line → Option Nat
  | .ok line => some line.number
  | .error e => e.line?

theorem reported?_ofTokens (number : Nat) (tokens : List Token) :
    reported? (Line.ofTokens number tokens) = some number := by
  cases hread : Line.ofTokens number tokens with
  | ok line => exact congrArg some (Line.number_of_ofTokens hread)
  | error e => exact (Line.line?_of_ofTokens hread).1

/-! ## Lines of a text -/

theorem newline_not_mem_lineTokens (symbols : Symbols) (line : List Char) :
    Token.newline ∉ lineTokens symbols line := by
  intro h
  obtain ⟨word, -, hword⟩ := List.mem_map.1 h
  rw [wordToken] at hword
  split at hword <;> contradiction

/-- What is left after a final line feed has no tokens, just as what is left after all lines. -/
theorem segments_ofText (symbols : Symbols) (text : String) :
    (ofText symbols text).segments =
      (((text.toList.splitOn '\n').map (lineTokens symbols)).zipIdx 1).filter
        fun (tokens, _) => !tokens.isEmpty := by
  have hrows : ∀ row ∈ (Text.lines text.toList).map (lineTokens symbols),
      Token.newline ∉ row :=
    List.forall_mem_map.2 fun line _ => newline_not_mem_lineTokens symbols line
  have hsplit := splitOn_newline hrows
  rw [List.flatMap_map] at hsplit
  rw [segments, ofText, hsplit, Text.lines]
  split
  · next hlast =>
      obtain ⟨kept, hkept⟩ := List.getLast?_eq_some_iff.1 hlast
      rw [hkept, List.dropLast_concat, List.map_append]
      rfl
  · rw [List.zipIdx_append, List.filter_append]
    simp

theorem hasLine_ofText_iff {symbols : Symbols} {text : String} {number : Nat}
    {tokens : List Token} :
    (ofText symbols text).HasLine number tokens ↔ tokens ≠ [] ∧ 1 ≤ number ∧
      (text.toList.splitOn '\n')[number - 1]?.map (lineTokens symbols) = some tokens := by
  rw [← mem_segments_iff, segments_ofText, ← List.getElem?_map]
  simp [List.mem_filter, List.mem_zipIdx_iff_le_and_getElem?_sub, and_comm]

/-- Each line of a template is numbered by what its first token stands behind, and so is its error.
The number is that of the line on which the token stands exactly if the blank fragments before it
hold as many line feeds as there are of them.  A text is numbered by its line feeds alone. -/
theorem template_number_eq_line_iff {fragments : List String} {idents : List Ident}
    {source : Source} (h : ofTemplate fragments idents = .ok source) :
    let pieces := interleave fragments idents
    (∀ s ∈ standings [] pieces, StandsIn pieces s) ∧
    (∃ rows : List Row, rows.flatMap Row.standings = standings [] pieces ∧
      source.segments = rows.map (fun row => (row.tokens, row.first.counted)) ∧
      source.parseEach.map reported? = rows.map (fun row => some row.first.counted) ∧
      ∀ row ∈ rows, row.first.counted = row.first.line ↔
        (row.first.blanks.flatMap String.toList).count '\n' = row.first.blanks.length) ∧
    ∀ symbols text number tokens, (ofText symbols text).HasLine number tokens ↔
      tokens ≠ [] ∧ 1 ≤ number ∧
        (text.toList.splitOn '\n')[number - 1]?.map (lineTokens symbols) = some tokens := by
  intro pieces
  have hsource : source = ofPieces pieces := by
    rw [ofTemplate] at h
    split at h <;> cases h
    rfl
  have hne : ∀ segment ∈ source.segments, segment.1 ≠ [] := by
    intro segment hsegment
    simpa using (List.mem_filter.1 hsegment).2
  have hnumbered : source.segments.flatMap withNumber =
      (standings [] pieces).map Standing.numbered := by
    rw [flatMap_segments, hsource]
    exact numbered_ofPieces [] pieces
  obtain ⟨rows, hfound, hsegments⟩ := exists_rows hne hnumbered
  refine ⟨@standsIn_of_mem_standings [] pieces, ⟨rows, hfound, hsegments, ?_,
    fun row _ => row.first.counted_eq_line_iff⟩, fun _ _ _ _ => hasLine_ofText_iff⟩
  rw [parseEach, hsegments, List.map_map, List.map_map]
  exact List.map_congr_left fun row _ => reported?_ofTokens _ _

/-- The empty fragment moves the first line down, and the two line feeds make good for it. -/
theorem template_number_eq_line_iff_of_empty_fragment :
    let fragments := ["", " -> ", "\n\n", " <- ", "\n"]
    let idents : List Ident := [.text "A", .text "B", .text "B", .text "A"]
    let first : List Token := [.hole (.text "A"), .word "->", .hole (.text "B")]
    let second : List Token := [.hole (.text "B"), .word "<-", .hole (.text "A")]
    let source : Source := .newline :: first ++ .newline :: second ++ [.newline]
    ofTemplate fragments idents = .ok source ∧
      ∃ rows : List Row, rows.flatMap Row.standings = standings [] (interleave fragments idents) ∧
        rows.map (fun row => (row.tokens, row.first.counted)) = [(first, 2), (second, 3)] ∧
        ∀ row ∈ rows, row.first.counted = row.first.line ↔
          (row.first.blanks.flatMap String.toList).count '\n' = row.first.blanks.length := by
  intro fragments idents first second source
  have htemplate : ofTemplate fragments idents = .ok source := rfl
  obtain ⟨-, ⟨rows, hfound, hsegments, -, hnumbers⟩, -⟩ := template_number_eq_line_iff htemplate
  exact ⟨htemplate, rows, hfound, hsegments.symm, hnumbers⟩

/-- A template counts the three line feeds between two lines as one, and a text does not. -/
theorem template_number_ne_line :
    let fragments := ["\n", " -> ", "\n\n\n", " => ", "\n"]
    let idents : List Ident := [.text "A", .text "B", .text "C", .text "D"]
    let first : Line := ⟨2, ⟨true, false⟩, .text "A", .text "B", none⟩
    ∃ source, ofTemplate fragments idents = .ok source ∧
      source.parseEach = [.ok first, .error (.invalidArrow 3 "=>")] ∧
      (standings [] (interleave fragments idents)).map (fun s => (s.token, s.line)) =
        [(.hole (.text "A"), 2), (.word "->", 2), (.hole (.text "B"), 2),
          (.hole (.text "C"), 5), (.word "=>", 5), (.hole (.text "D"), 5)] ∧
      (ofText .empty "\nA -> B\n\n\nC => D\n").parseEach =
        [.ok first, .error (.invalidArrow 5 "=>")] :=
  ⟨_, rfl, rfl, rfl, by decide +kernel⟩

end Source

end StateDiagram
