import StateDiagram.Proofs.Diagram.Numbering

/-!
# Lines of a text on their own

A text is read line by line.  What a line gives does not depend on the other lines, only its number
does, and that is the number of the line in the text.  Blank lines give nothing but count, and
nothing but a line feed ends a line.
-/

namespace StateDiagram

/-! ## The same line under another number -/

def DiagramError.renumber (number : Nat) : DiagramError → DiagramError
  | .invalidArrow _ token => .invalidArrow number token
  | .invalidMarker _ token => .invalidMarker number token
  | .malformed _ found => .malformed number found
  | .anonymousEvent _ => .anonymousEvent number
  | .templateShape fragments idents => .templateShape fragments idents

def Line.renumber (number : Nat) (line : Line) : Line := { line with number }

namespace Source

def renumber (number : Nat) : Except DiagramError Line → Except DiagramError Line
  | .ok line => .ok (line.renumber number)
  | .error e => .error (e.renumber number)

end Source

namespace Line

variable {number : Nat} {tokens : List Token} {result : Except DiagramError Line}

theorem Reads.renumber (h : Reads number tokens result) (other : Nat) :
    Reads other tokens (Source.renumber other result) := by
  cases h with
  | plain harrow => exact .plain harrow
  | gated harrow => exact .gated harrow
  | unbegun hbegin => exact .unbegun hbegin
  | noArrow hpoints => exact .noArrow hpoints
  | wordMarker harrow hmarker => exact .wordMarker harrow hmarker
  | identMarker harrow => exact .identMarker harrow
  | unended harrow hplain hword hident => exact .unended harrow hplain hword hident

theorem renumber_ofTokens (number other : Nat) (tokens : List Token) :
    Source.renumber other (ofTokens number tokens) = ofTokens other tokens :=
  ((reads_ofTokens number tokens).renumber other).eq_ofTokens.symm

theorem renumber_fault? (number other : Nat) (tokens : List Token) :
    (fault? number tokens).map (DiagramError.renumber other) = fault? other tokens := by
  rw [fault?, fault?, ← renumber_ofTokens number other]
  cases ofTokens number tokens with
  | error e => rfl
  | ok line =>
      simp only [Source.renumber, anonymousEvent?_eq]
      change _ = if line.isAnonymous then _ else _
      split <;> rfl

end Line

namespace Source

/-! ## The lines of a text -/

/-- The pieces of the text between its line feeds, numbered from one. -/
def physicalLines (text : String) : List (List Char × Nat) := (text.toList.splitOn '\n').zipIdx 1

/-- The text of this one line. -/
def ofLine (symbols : Symbols) (line : List Char) : Source := ofText symbols (String.ofList line)

/-- What the line gives on its own, but under its number. -/
def resultsOf (symbols : Symbols) (line : List Char × Nat) : List (Except DiagramError Line) :=
  (ofLine symbols line.1).parseEach.map (renumber line.2)

def faultsOf (symbols : Symbols) (line : List Char × Nat) : List DiagramError :=
  (ofLine symbols line.1).lint.map (DiagramError.renumber line.2)

/-- The text with another line under that number. -/
def replaceLine (text : String) (number : Nat) (line : List Char) : String :=
  String.ofList (['\n'].intercalate ((text.toList.splitOn '\n').set (number - 1) line))

variable {symbols : Symbols} {text : String} {chars : List Char} {number : Nat}

theorem newline_not_mem_of_mem_physicalLines (h : (chars, number) ∈ physicalLines text) :
    '\n' ∉ chars := by
  have hmem := List.mem_map_of_mem (f := Prod.fst) h
  rw [physicalLines, List.zipIdx_map_fst] at hmem
  exact not_mem_of_mem_splitOn hmem

theorem physicalLines_of_intercalate {lines : List (List Char)} (hne : lines ≠ [])
    (h : ∀ line ∈ lines, '\n' ∉ line) :
    physicalLines (String.ofList (['\n'].intercalate lines)) = lines.zipIdx 1 := by
  rw [physicalLines, String.toList_ofList, List.splitOn_intercalate '\n' h hne]

theorem segments_ofLine (h : '\n' ∉ chars) :
    (ofLine symbols chars).segments =
      if lineTokens symbols chars = [] then [] else [(lineTokens symbols chars, 1)] := by
  rw [ofLine, segments_ofText, String.toList_ofList, List.splitOn_eq_singleton h]
  split <;> simp [*]

/-! ## What one line gives -/

theorem parseEach_ofLine (h : '\n' ∉ chars) :
    (ofLine symbols chars).parseEach =
      if lineTokens symbols chars = [] then []
      else [Line.ofTokens 1 (lineTokens symbols chars)] := by
  rw [parseEach, segments_ofLine h]
  split <;> rfl

theorem resultsOf_eq (h : '\n' ∉ chars) :
    resultsOf symbols (chars, number) =
      if lineTokens symbols chars = [] then []
      else [Line.ofTokens number (lineTokens symbols chars)] := by
  rw [resultsOf, parseEach_ofLine h]
  split
  · rfl
  · rw [List.map_singleton, Line.renumber_ofTokens]

theorem lint_ofLine (h : '\n' ∉ chars) :
    (ofLine symbols chars).lint =
      if lineTokens symbols chars = [] then []
      else (Line.fault? 1 (lineTokens symbols chars)).toList := by
  rw [lint_eq, segments_ofLine h]
  split
  · rfl
  · rw [List.filterMap_cons]
    cases Line.fault? 1 (lineTokens symbols chars) <;> rfl

theorem faultsOf_eq (h : '\n' ∉ chars) :
    faultsOf symbols (chars, number) =
      if lineTokens symbols chars = [] then []
      else (Line.fault? number (lineTokens symbols chars)).toList := by
  rw [faultsOf, lint_ofLine h]
  split
  · rfl
  · rw [← Line.renumber_fault? 1 number, Option.toList_map]

theorem reported?_of_mem_resultsOf {result : Except DiagramError Line} (h : '\n' ∉ chars)
    (hresult : result ∈ resultsOf symbols (chars, number)) : reported? result = some number := by
  rw [resultsOf_eq h] at hresult
  split at hresult
  · contradiction
  · rw [List.mem_singleton.1 hresult, reported?_ofTokens]

/-- A result of a line in a text is all that the line gives on its own. -/
theorem parseEach_ofLine_of_mem_resultsOf {result : Except DiagramError Line} (h : '\n' ∉ chars)
    (hresult : result ∈ resultsOf symbols (chars, number)) :
    (ofLine symbols chars).parseEach = [renumber 1 result] := by
  rw [resultsOf_eq h] at hresult
  rw [parseEach_ofLine h]
  split at hresult
  · contradiction
  · next htokens =>
      rw [if_neg htokens, List.mem_singleton.1 hresult, Line.renumber_ofTokens]

theorem lint_ofLine_of_mem_faultsOf {e : DiagramError} (h : '\n' ∉ chars)
    (he : e ∈ faultsOf symbols (chars, number)) :
    e.line? = some number ∧ (ofLine symbols chars).lint = [e.renumber 1] := by
  rw [faultsOf_eq h] at he
  rw [lint_ofLine h]
  split at he
  · contradiction
  · next htokens =>
      have hfault := Option.mem_toList.1 he
      refine ⟨Line.line?_of_fault? hfault, ?_⟩
      rw [if_neg htokens, ← Line.renumber_fault? number 1, hfault]
      rfl

/-! ## What all lines give -/

/-- Reading the lines that hold a token is reading all lines, where a blank one gives nothing. -/
theorem filterMap_segments_ofText {β : Type} (read : List Token × Nat → Option β)
    (symbols : Symbols) (text : String) :
    (ofText symbols text).segments.filterMap read = (physicalLines text).flatMap fun line =>
      if lineTokens symbols line.1 = [] then []
      else (read (lineTokens symbols line.1, line.2)).toList := by
  have hnumbers : ((text.toList.splitOn '\n').map (lineTokens symbols)).zipIdx 1 =
      (physicalLines text).map (Prod.map (lineTokens symbols) id) := List.zipIdx_map
  rw [segments_ofText, hnumbers, List.filterMap_filter, List.filterMap_map,
    List.filterMap_eq_flatMap_toList]
  apply List.flatMap_congr
  rintro ⟨chars, number⟩ -
  by_cases htokens : lineTokens symbols chars = [] <;> simp [htokens]

theorem parseEach_ofText (symbols : Symbols) (text : String) :
    (ofText symbols text).parseEach = (physicalLines text).flatMap (resultsOf symbols) := by
  rw [parseEach, ← List.filterMap_eq_map, filterMap_segments_ofText]
  apply List.flatMap_congr
  rintro ⟨chars, number⟩ hline
  rw [resultsOf_eq (newline_not_mem_of_mem_physicalLines hline)]
  rfl

theorem lint_ofText (symbols : Symbols) (text : String) :
    (ofText symbols text).lint = (physicalLines text).flatMap (faultsOf symbols) := by
  rw [lint_eq, filterMap_segments_ofText]
  apply List.flatMap_congr
  rintro ⟨chars, number⟩ hline
  rw [faultsOf_eq (newline_not_mem_of_mem_physicalLines hline)]

theorem parse_eq_ok_iff {source : Source} {lines : List Line} :
    source.parse = .ok lines ↔ source.parseEach = lines.map .ok := mapM_eq_ok_iff_map

theorem exists_of_parse_ofText {lines : List Line} (h : (ofText symbols text).parse = .ok lines)
    {line : Line} (hline : line ∈ lines) :
    ∃ chars, (chars, line.number) ∈ physicalLines text ∧
      (ofLine symbols chars).parse = .ok [line.renumber 1] := by
  have hresult : .ok line ∈ (ofText symbols text).parseEach := by
    rw [parse_eq_ok_iff.1 h]
    exact List.mem_map_of_mem hline
  rw [parseEach_ofText] at hresult
  obtain ⟨⟨chars, number⟩, hphysical, hmem⟩ := List.mem_flatMap.1 hresult
  have hfeed := newline_not_mem_of_mem_physicalLines hphysical
  obtain rfl : line.number = number := Option.some.inj (reported?_of_mem_resultsOf hfeed hmem)
  have halone := parseEach_ofLine_of_mem_resultsOf hfeed hmem
  exact ⟨chars, hphysical, parse_eq_ok_iff.2 halone⟩

theorem exists_of_compile_ofText {e : DiagramError}
    (h : Table.compile (ofText symbols text) = .error e) :
    ∃ chars number, (chars, number) ∈ physicalLines text ∧ e.line? = some number ∧
      Table.compile (ofLine symbols chars) = .error (e.renumber 1) := by
  have hlint := DiagramError.mem_of_firstFound? (compile_eq_error_iff.1 h)
  rw [lint_ofText] at hlint
  obtain ⟨⟨chars, number⟩, hphysical, hmem⟩ := List.mem_flatMap.1 hlint
  obtain ⟨hnumber, halone⟩ :=
    lint_ofLine_of_mem_faultsOf (newline_not_mem_of_mem_physicalLines hphysical) hmem
  refine ⟨chars, number, hphysical, hnumber, compile_of_firstFound? ?_⟩
  rw [halone, DiagramError.firstFound?_cons_eq_some_self_iff]
  simp

/-! ## Another line in its place -/

theorem zipIdx_append_cons {α : Type} (before : List α) (a : α) (after : List α) :
    (before ++ a :: after).zipIdx 1 =
      before.zipIdx 1 ++ (a, before.length + 1) :: after.zipIdx (before.length + 2) := by
  rw [List.zipIdx_append, List.zipIdx_cons, Nat.add_comm 1]

/-- The lines before keep their places and so do the lines after. -/
theorem exists_physicalLines_replaceLine {other : List Char} (hother : '\n' ∉ other)
    (h : (chars, number) ∈ physicalLines text) :
    ∃ before after, physicalLines text = before ++ (chars, number) :: after ∧
      physicalLines (replaceLine text number other) = before ++ (other, number) :: after ∧
      (∀ line ∈ before, line.2 < number) ∧ ∀ line ∈ after, number < line.2 := by
  obtain ⟨hnumber, hget⟩ : 1 ≤ number ∧ (text.toList.splitOn '\n')[number - 1]? = some chars :=
    List.mem_zipIdx_iff_le_and_getElem?_sub.1 h
  obtain ⟨hlt, hchars⟩ := List.getElem?_eq_some_iff.1 hget
  let before := (text.toList.splitOn '\n').take (number - 1)
  let after := (text.toList.splitOn '\n').drop (number - 1 + 1)
  have hlength : before.length = number - 1 := List.length_take_of_le (Nat.le_of_lt hlt)
  have hpieces : text.toList.splitOn '\n' = before ++ chars :: after := by
    rw [← hchars, ← List.drop_eq_getElem_cons hlt, List.take_append_drop]
  have hset : (text.toList.splitOn '\n').set (number - 1) other = before ++ other :: after := by
    rw [List.set_eq_take_append_cons_drop, if_pos hlt]
  have hfeeds : ∀ line ∈ before ++ other :: after, '\n' ∉ line := by
    intro line hline
    rw [← hset] at hline
    rcases List.mem_or_eq_of_mem_set hline with hmem | rfl
    · exact not_mem_of_mem_splitOn hmem
    · exact hother
  have hplace : before.length + 1 = number := by omega
  refine ⟨before.zipIdx 1, after.zipIdx (before.length + 2), ?_, ?_, ?_, ?_⟩
  · rw [physicalLines, hpieces, zipIdx_append_cons, hplace]
  · rw [replaceLine, hset, physicalLines_of_intercalate (by simp) hfeeds, zipIdx_append_cons,
      hplace]
  · rintro ⟨line, n⟩ hline
    have hlast := List.snd_lt_add_of_mem_zipIdx hline
    simp only
    omega
  · rintro ⟨line, n⟩ hline
    have hfirst := List.le_snd_of_mem_zipIdx hline
    simp only
    omega

theorem exists_parseEach_replaceLine (symbols : Symbols) {other : List Char}
    (hother : '\n' ∉ other) (h : (chars, number) ∈ physicalLines text) :
    ∃ before after,
      (ofText symbols text).parseEach = before ++ resultsOf symbols (chars, number) ++ after ∧
      (ofText symbols (replaceLine text number other)).parseEach =
        before ++ resultsOf symbols (other, number) ++ after ∧
      (∀ result ∈ before, ∃ n, n < number ∧ reported? result = some n) ∧
      ∀ result ∈ after, ∃ n, number < n ∧ reported? result = some n := by
  obtain ⟨before, after, hlines, hagain, hbefore, hafter⟩ :=
    exists_physicalLines_replaceLine hother h
  have hreported : ∀ line ∈ physicalLines text, ∀ result ∈ resultsOf symbols line,
      reported? result = some line.2 := fun line hline result =>
    reported?_of_mem_resultsOf (newline_not_mem_of_mem_physicalLines hline)
  refine ⟨before.flatMap (resultsOf symbols), after.flatMap (resultsOf symbols), ?_, ?_, ?_, ?_⟩
  · rw [parseEach_ofText, hlines, List.flatMap_append, List.flatMap_cons, List.append_assoc]
  · rw [parseEach_ofText, hagain, List.flatMap_append, List.flatMap_cons, List.append_assoc]
  · intro result hresult
    obtain ⟨line, hline, hmem⟩ := List.mem_flatMap.1 hresult
    exact ⟨line.2, hbefore line hline, hreported line (by simp [hlines, hline]) result hmem⟩
  · intro result hresult
    obtain ⟨line, hline, hmem⟩ := List.mem_flatMap.1 hresult
    exact ⟨line.2, hafter line hline, hreported line (by simp [hlines, hline]) result hmem⟩

/-- A text is read as its lines are, each on its own and then put under its number in the text.  So
every number that is reported is that of the line in the text, by which the line can be read or
fails on its own as well, and whatever comes in the place of one line leaves the results of all
others alone. -/
theorem text_read_by_lines (symbols : Symbols) (text : String) :
    (ofText symbols text).parseEach = (physicalLines text).flatMap (resultsOf symbols) ∧
    (ofText symbols text).lint = (physicalLines text).flatMap (faultsOf symbols) ∧
    (∀ line ∈ physicalLines text,
      (ofLine symbols line.1).parseEach =
        (if lineTokens symbols line.1 = [] then []
          else [Line.ofTokens 1 (lineTokens symbols line.1)]) ∧
      (∀ result ∈ resultsOf symbols line, reported? result = some line.2) ∧
      ∀ e ∈ faultsOf symbols line, e.line? = some line.2) ∧
    (∀ lines, (ofText symbols text).parse = .ok lines → ∀ line ∈ lines,
      ∃ chars, (chars, line.number) ∈ physicalLines text ∧
        (ofLine symbols chars).parse = .ok [line.renumber 1]) ∧
    (∀ e, Table.compile (ofText symbols text) = .error e →
      ∃ chars number, (chars, number) ∈ physicalLines text ∧ e.line? = some number ∧
        Table.compile (ofLine symbols chars) = .error (e.renumber 1)) ∧
    ∀ chars number other, (chars, number) ∈ physicalLines text → '\n' ∉ other →
      ∃ before after,
        (ofText symbols text).parseEach = before ++ resultsOf symbols (chars, number) ++ after ∧
        (ofText symbols (replaceLine text number other)).parseEach =
          before ++ resultsOf symbols (other, number) ++ after ∧
        (∀ result ∈ before, ∃ n, n < number ∧ reported? result = some n) ∧
        ∀ result ∈ after, ∃ n, number < n ∧ reported? result = some n := by
  refine ⟨parseEach_ofText symbols text, lint_ofText symbols text, ?_,
    fun _ h _ => exists_of_parse_ofText h, fun _ => exists_of_compile_ofText,
    fun _ _ _ h hother => exists_parseEach_replaceLine symbols hother h⟩
  intro line hline
  have hfeed := newline_not_mem_of_mem_physicalLines hline
  exact ⟨parseEach_ofLine hfeed, fun result => reported?_of_mem_resultsOf hfeed,
    fun e he => (lint_ofLine_of_mem_faultsOf hfeed he).1⟩

/-- Blank lines count, and a line feed in a replacement would make two lines of it. -/
theorem text_read_by_lines_of_feeds :
    let text := "\nA -> B\r\n\nB => A\n"
    let line : Line := ⟨2, ⟨true, false⟩, .text "A", .text "B", none⟩
    physicalLines text =
      [([], 1), ("A -> B\r".toList, 2), ([], 3), ("B => A".toList, 4), ([], 5)] ∧
    (ofText .empty text).parseEach = [.ok line, .error (.invalidArrow 4 "=>")] ∧
    Table.compile (ofText .empty text) = .error (.invalidArrow 4 "=>") ∧
    (∃ chars, (chars, 4) ∈ physicalLines text ∧
      Table.compile (ofLine .empty chars) = .error (.invalidArrow 1 "=>")) ∧
    '\n' ∉ "B ~ C".toList ∧ replaceLine text 4 "B ~ C".toList = "\nA -> B\r\n\nB ~ C\n" ∧
    ∃ before after, (ofText .empty text).parseEach =
        before ++ resultsOf .empty ("B => A".toList, 4) ++ after ∧
      (ofText .empty (replaceLine text 4 "B ~ C".toList)).parseEach =
        before ++ resultsOf .empty ("B ~ C".toList, 4) ++ after := by
  intro text line
  have hlines : physicalLines text =
    [([], 1), ("A -> B\r".toList, 2), ([], 3), ("B => A".toList, 4), ([], 5)] := by decide +kernel
  have hcompile : Table.compile (ofText .empty text) = .error (.invalidArrow 4 "=>") :=
    by decide +kernel
  have hfeed : '\n' ∉ "B ~ C".toList := by decide
  obtain ⟨-, -, -, -, hfails, hreplaced⟩ := text_read_by_lines .empty text
  obtain ⟨chars, number, hphysical, hnumber, halone⟩ := hfails _ hcompile
  obtain rfl : 4 = number := Option.some.inj hnumber
  obtain ⟨before, after, hbefore, hafter, -⟩ :=
    hreplaced "B => A".toList 4 "B ~ C".toList (by simp [hlines]) hfeed
  refine ⟨hlines, by decide +kernel, hcompile, ?_, hfeed, by decide +kernel, ?_⟩
  · exact ⟨chars, hphysical, halone⟩
  · exact ⟨before, after, hbefore, hafter⟩

end Source

end StateDiagram
