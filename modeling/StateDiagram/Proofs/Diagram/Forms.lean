import StateDiagram.Proofs.Diagram.Statement
import StateDiagram.Proofs.Text.Spacing

/-!
# Forms of a source

The same statements may be written as plain text, as a template or piece by piece, each with blanks
and empty lines to taste.  All these sources denote the statements, so they compile alike.
-/

namespace StateDiagram

/-! ## Plain text -/

/-- The name is a word under which a text finds the identifier. -/
structure Symbols.Names (symbols : Symbols) (name : Ident → String) (i : Ident) : Prop where
  get?_name : symbols.get? (name i) = some i
  isWord : Text.IsWord (name i).toList

/-- Neither an arrow nor the marker is taken for an identifier. -/
structure Symbols.KeepSigns (symbols : Symbols) : Prop where
  get?_sign : ∀ sign : Sign, symbols.get? sign.text = none
  get?_marker : symbols.get? "@" = none

theorem Sign.isWord_text (sign : Sign) : Text.IsWord sign.text.toList := by
  cases sign <;> decide

theorem isWord_marker : Text.IsWord "@".toList := by decide

namespace Statement

def idents (s : Statement) : List Ident := [s.left, s.right] ++ s.event.toList

def words (name : Ident → String) (s : Statement) : List String :=
  [name s.left, s.sign.text, name s.right] ++
    match s.event with
    | none => []
    | some event => ["@", name event]

def wordsOf (name : Ident → String) : Option Statement → List String
  | none => []
  | some s => s.words name

variable {symbols : Symbols} {name : Ident → String} {s : Statement}

theorem isWord_of_mem_words (hnames : ∀ i ∈ s.idents, symbols.Names name i) :
    ∀ w ∈ s.words name, Text.IsWord w.toList := by
  obtain ⟨left, sign, right, event⟩ := s
  have hleft := (hnames left (by simp [idents])).isWord
  have hright := (hnames right (by simp [idents])).isWord
  cases event with
  | none => simp [words, hleft, hright, sign.isWord_text]
  | some event =>
      have hevent := (hnames event (by simp [idents])).isWord
      have hmarker : Text.IsWord ['@'] := isWord_marker
      simp [words, hleft, hright, hevent, hmarker, sign.isWord_text]

theorem wordToken_name {i : Ident} (h : symbols.Names name i) :
    Source.wordToken symbols (name i) = .hole i := by
  simp [Source.wordToken, h.get?_name, Symbols.resolve]

theorem map_wordToken_words (hsigns : symbols.KeepSigns)
    (hnames : ∀ i ∈ s.idents, symbols.Names name i) :
    (s.words name).map (Source.wordToken symbols) = s.tokens := by
  obtain ⟨left, sign, right, event⟩ := s
  have hleft := wordToken_name (hnames left (by simp [idents]))
  have hright := wordToken_name (hnames right (by simp [idents]))
  have hsign : Source.wordToken symbols sign.text = .word sign.text := by
    have hplain : sign.text.toList.any Text.isAlphanumeric = false := by
      cases sign <;> decide +kernel
    simp [Source.wordToken, hsigns.get?_sign, hplain]
  have hmarker : Source.wordToken symbols "@" = .word "@" := by
    have hplain : Text.isAlphanumeric '@' = false := by decide +kernel
    simp [Source.wordToken, hsigns.get?_marker, hplain]
  cases event with
  | none => simp [words, tokens, hleft, hright, hsign]
  | some event =>
      have hevent := wordToken_name (hnames event (by simp [idents]))
      simp [words, tokens, hleft, hright, hsign, hmarker, hevent]

end Statement

/-- A line of a text: a statement or nothing, with any blanks around the words.  A carriage return
at the end is one of the blanks. -/
structure TextLine (name : Ident → String) where
  statement? : Option Statement
  chars : List Char
  spaced : Text.Spaced ((Statement.wordsOf name statement?).map String.toList) chars
  feed_not_mem : '\n' ∉ chars

namespace TextLine

variable {symbols : Symbols} {name : Ident → String}

/-- The text with these lines.  If it is to end with a line feed, the last line is empty. -/
def textOf (lines : List (TextLine name)) : String :=
  String.ofList (['\n'].intercalate (lines.map chars))

def Named (symbols : Symbols) (line : TextLine name) : Prop :=
  ∀ s, line.statement? = some s → ∀ i ∈ s.idents, symbols.Names name i

theorem words_chars {line : TextLine name} (h : line.Named symbols) :
    Text.words line.chars = (Statement.wordsOf name line.statement?).map String.toList := by
  apply Text.words_of_spaced _ line.spaced
  intro w hw
  obtain ⟨word, hword, rfl⟩ := List.mem_map.1 hw
  cases hstatement : line.statement? with
  | none => simp [hstatement, Statement.wordsOf] at hword
  | some s =>
      rw [hstatement] at hword
      exact Statement.isWord_of_mem_words (h s hstatement) word hword

theorem lineTokens_chars {line : TextLine name} (hsigns : symbols.KeepSigns)
    (h : line.Named symbols) :
    Source.lineTokens symbols line.chars = Statement.tokensOf line.statement? := by
  rw [Source.lineTokens, words_chars h, List.map_map]
  cases hstatement : line.statement? with
  | none => rfl
  | some s =>
      rw [Statement.tokensOf, ← Statement.map_wordToken_words hsigns (h s hstatement)]
      simp [Statement.wordsOf, Function.comp_def]

theorem statement?_eq_none {line : TextLine name} (h : line.Named symbols)
    (hchars : line.chars = []) : line.statement? = none := by
  have hwords := words_chars h
  rw [hchars, Text.words_nil] at hwords
  cases hstatement : line.statement? with
  | none => rfl
  | some s => simp [hstatement, Statement.wordsOf, Statement.words] at hwords

/-- The lines of the text are the given ones, up to an empty one at the end. -/
theorem exists_lines_textOf {lines : List (TextLine name)}
    (h : ∀ line ∈ lines, line.Named symbols) :
    ∃ kept : List (TextLine name), Text.lines (textOf lines).toList = kept.map chars ∧
      (∀ line ∈ kept, line.Named symbols) ∧
      kept.filterMap statement? = lines.filterMap statement? := by
  have hlines : Text.lines (textOf lines).toList =
      if (lines.map chars).getLast? = some [] then (lines.map chars).dropLast
      else lines.map chars := by
    rw [textOf, String.toList_ofList]
    apply Text.lines_intercalate
    intro chars hchars
    obtain ⟨line, -, rfl⟩ := List.mem_map.1 hchars
    exact line.feed_not_mem
  split at hlines
  · next hlast =>
      -- The empty line at the end makes no statement, so none is lost with it.
      rw [List.getLast?_map] at hlast
      obtain ⟨last, hlast, hchars⟩ := Option.map_eq_some_iff.1 hlast
      obtain ⟨kept, rfl⟩ := List.getLast?_eq_some_iff.1 hlast
      refine ⟨kept, by simpa using hlines, fun line hline => h line (by simp [hline]), ?_⟩
      simp [statement?_eq_none (h last (by simp)) hchars]
  · exact ⟨lines, hlines, h, rfl⟩

end TextLine

namespace Source

theorem denotes_ofText {symbols : Symbols} {name : Ident → String} (hsigns : symbols.KeepSigns)
    {lines : List (TextLine name)} (h : ∀ line ∈ lines, line.Named symbols) :
    (ofText symbols (TextLine.textOf lines)).Denotes (lines.filterMap TextLine.statement?) := by
  obtain ⟨kept, hkept, hnamed, hstatements⟩ := TextLine.exists_lines_textOf h
  have htokens : ofText symbols (TextLine.textOf lines) =
      (kept.map TextLine.statement?).flatMap fun row => Statement.tokensOf row ++ [.newline] := by
    rw [ofText, hkept, List.flatMap_map, List.flatMap_map]
    apply List.flatMap_congr
    intro line hline
    rw [TextLine.lineTokens_chars hsigns (hnamed line hline)]
  rw [htokens, ← hstatements]
  have hdenotes := denotes_flatMap (kept.map TextLine.statement?)
  rwa [List.reduceOption, List.filterMap_map] at hdenotes

/-! ## Templates and pieces -/

/-- The fragment is the word with blanks around it, all on one line. -/
def Pads (word fragment : String) : Prop :=
  '\n' ∉ fragment.toList ∧ ∃ before after, Text.AllBlank before ∧ Text.AllBlank after ∧
    fragment.toList = before ++ word.toList ++ after

/-- The fragments and identifiers of a template that makes the statements: a blank fragment before
every statement and after the last, and around the identifiers the arrows and markers. -/
inductive Tagged : List Statement → List String → List Ident → Prop where
  | nil {blank : String} (hblank : Text.AllBlank blank.toList) : Tagged [] [blank] []
  | plain {statements : List Statement} {fragments : List String} {idents : List Ident}
      {left right : Ident} {sign : Sign} {blank arrow : String} (hblank : Text.AllBlank blank.toList)
      (harrow : Pads sign.text arrow) (hrest : Tagged statements fragments idents) :
      Tagged (⟨left, sign, right, none⟩ :: statements) (blank :: arrow :: fragments)
        (left :: right :: idents)
  | gated {statements : List Statement} {fragments : List String} {idents : List Ident}
      {left right event : Ident} {sign : Sign} {blank arrow marker : String}
      (hblank : Text.AllBlank blank.toList) (harrow : Pads sign.text arrow) (hmarker : Pads "@" marker)
      (hrest : Tagged statements fragments idents) :
      Tagged (⟨left, sign, right, some event⟩ :: statements)
        (blank :: arrow :: marker :: fragments) (left :: right :: event :: idents)

theorem ofFragment_of_blank {fragment : String} (h : Text.AllBlank fragment.toList) :
    ofFragment fragment = [.newline] := by
  simp [ofFragment, Text.trim_of_blank h]

theorem ofFragment_of_pads {word fragment : String} (hword : Text.IsWord word.toList)
    (h : Pads word fragment) : ofFragment fragment = [.word word] := by
  obtain ⟨hfeed, before, after, hbefore, hafter, hfragment⟩ := h
  have htrim : Text.trim fragment.toList = word.toList := by
    rw [hfragment, Text.trim_pad hbefore hword hafter]
  have hsplit : fragment.toList.splitOn '\n' = [fragment.toList] :=
    List.splitOn_eq_singleton hfeed
  simp [ofFragment, hsplit, trimmedWord, htrim, hword.1]

variable {statements : List Statement} {fragments : List String} {idents : List Ident}

theorem length_fragments (h : Tagged statements fragments idents) :
    fragments.length = idents.length + 1 := by
  induction h with
  | nil => rfl
  | plain _ _ _ ih => simp [ih]
  | gated _ _ _ _ ih => simp [ih]

theorem ofPieces_of_tagged (h : Tagged statements fragments idents) :
    ofPieces (interleave fragments idents) =
      .newline :: statements.flatMap fun s => s.tokens ++ [.newline] := by
  induction h with
  | nil hblank => simp [interleave, ofPieces, Piece.tokens, ofFragment_of_blank hblank]
  | plain hblank harrow _ ih =>
      rw [ofPieces] at ih
      simp [interleave, ofPieces, Piece.tokens, ofFragment_of_blank hblank,
        ofFragment_of_pads (Sign.isWord_text _) harrow, ih, Statement.tokens]
  | gated hblank harrow hmarker _ ih =>
      rw [ofPieces] at ih
      simp [interleave, ofPieces, Piece.tokens, ofFragment_of_blank hblank,
        ofFragment_of_pads (Sign.isWord_text _) harrow, ofFragment_of_pads isWord_marker hmarker,
        ih, Statement.tokens]

theorem denotes_of_tagged (h : Tagged statements fragments idents) :
    (ofPieces (interleave fragments idents)).Denotes statements := by
  have hdenotes := denotes_flatMap (none :: statements.map some)
  rw [ofPieces_of_tagged h]
  simpa [List.flatMap_map, Statement.tokensOf, List.reduceOption, List.filterMap_map] using hdenotes

/-- Plain text, template and pieces that make the same statements are all read as them, and compile
to the same table or are refused alike. -/
theorem forms_agree {symbols : Symbols} {name : Ident → String} (hsigns : symbols.KeepSigns)
    (hnames : ∀ s ∈ statements, ∀ i ∈ s.idents, symbols.Names name i)
    {lines : List (TextLine name)} (hlines : lines.filterMap TextLine.statement? = statements)
    (htagged : Tagged statements fragments idents) :
    let text := ofText symbols (TextLine.textOf lines)
    let pieces := ofPieces (interleave fragments idents)
    ofTemplate fragments idents = .ok pieces ∧ text.Denotes statements ∧
      pieces.Denotes statements ∧
      ((∃ t, Table.compile text = .ok t ∧ Table.compile pieces = .ok t) ∨
        ∃ m n, Table.compile text = .error (.anonymousEvent m) ∧
          Table.compile pieces = .error (.anonymousEvent n)) := by
  have htext : (ofText symbols (TextLine.textOf lines)).Denotes statements := by
    rw [← hlines]
    apply denotes_ofText hsigns
    intro line hline s hs
    exact hnames s (hlines ▸ List.mem_filterMap.2 ⟨line, hline, hs⟩)
  have hpieces := denotes_of_tagged htagged
  refine ⟨by rw [ofTemplate, if_pos (length_fragments htagged)], htext, hpieces, ?_⟩
  have hfirst := Table.compile_of_denotes htext
  have hsecond := Table.compile_of_denotes hpieces
  by_cases hanonymous : (statements.map (·.line 0)).any Line.isAnonymous
  · simp only [if_pos hanonymous] at hfirst hsecond
    obtain ⟨m, hm⟩ := hfirst
    obtain ⟨n, hn⟩ := hsecond
    exact .inr ⟨m, n, hm, hn⟩
  · simp only [if_neg hanonymous] at hfirst hsecond
    exact .inl ⟨_, hfirst, hsecond⟩

/-- A callable goes by another name in the text, whose lines end in different ways. -/
theorem forms_agree_of_start :
    let start : Ident := .behavior ⟨0, "go"⟩
    let name : Ident → String := fun i => if i.isCallable then "start" else i.label
    let symbols := ((Symbols.empty.register (.text "A")).register (.text "B")).insert "start" start
    let statements : List Statement :=
      [⟨.text "A", .right, .text "B", some start⟩, ⟨.text "B", .both, .text "A", none⟩]
    ∃ lines : List (TextLine name),
      TextLine.textOf lines = "  A ->\tB @ start \r\n\nB <-> A\n" ∧
      symbols.KeepSigns ∧ (∀ s ∈ statements, ∀ i ∈ s.idents, symbols.Names name i) ∧
      lines.filterMap TextLine.statement? = statements ∧
      Tagged statements ["\n", " -> ", "@", " \n\n", "<->", ""]
        [.text "A", .text "B", start, .text "B", .text "A"] ∧
      (ofText symbols "  A ->\tB @ start \r\n\nB <-> A\n").Denotes statements := by
  intro start name symbols statements
  have hsigns : symbols.KeepSigns := ⟨by intro sign; cases sign <;> rfl, rfl⟩
  have hA : symbols.Names name (.text "A") :=
    ⟨rfl, (by decide : Text.IsWord "A".toList)⟩
  have hB : symbols.Names name (.text "B") :=
    ⟨rfl, (by decide : Text.IsWord "B".toList)⟩
  have hstart : symbols.Names name start :=
    ⟨rfl, (by decide : Text.IsWord "start".toList)⟩
  have hnames : ∀ s ∈ statements, ∀ i ∈ s.idents, symbols.Names name i := by
    simp [statements, Statement.idents, hA, hB, hstart]
  let first : TextLine name :=
    { statement? := some ⟨.text "A", .right, .text "B", some start⟩
      chars := "  A ->\tB @ start \r".toList
      spaced := by
        simp only [Statement.wordsOf, Statement.words, name, start]
        exact .cons [' ', ' '] ['A'] ' ' (by decide) rfl <|
          .cons [] ['-', '>'] '\t' (by decide) rfl <|
          .cons [] ['B'] ' ' (by decide) rfl <|
          .cons [] ['@'] ' ' (by decide) rfl <|
          .cons [] "start".toList ' ' (by decide) rfl (.blank ['\r'] (by decide))
      feed_not_mem := by decide }
  let second : TextLine name :=
    { statement? := some ⟨.text "B", .both, .text "A", none⟩
      chars := "B <-> A".toList
      spaced := by
        simp only [Statement.wordsOf, Statement.words, name]
        exact .cons [] ['B'] ' ' (by decide) rfl <|
          .cons [] ['<', '-', '>'] ' ' (by decide) rfl (.last [] ['A'] (by decide))
      feed_not_mem := by decide }
  let empty : TextLine name := ⟨none, [], .blank [] (by decide), by decide⟩
  have htagged : Tagged statements ["\n", " -> ", "@", " \n\n", "<->", ""]
      [.text "A", .text "B", start, .text "B", .text "A"] :=
    .gated (by decide) ⟨by decide, [' '], [' '], by decide, by decide, rfl⟩
      ⟨by decide, [], [], by decide, by decide, rfl⟩ <|
      .plain (by decide) ⟨by decide, [], [], by decide, by decide, rfl⟩ (.nil (by decide))
  have hforms := @forms_agree statements _ _ symbols name hsigns hnames
    [first, empty, second, empty] rfl htagged
  exact ⟨[first, empty, second, empty], rfl, hsigns, hnames, rfl, htagged, hforms.2.1⟩

end Source

end StateDiagram
