import StateDiagram.Proofs.Table.Tabulated

/-!
# What a diagram describes

The table of a list of lines, read off the lines as a whole and not built up line by line.  Building
arrives at exactly this table unless some line has an event without a label.
-/

namespace StateDiagram

namespace Line

/-- The two ends in the order in which the line names a source and its target first. -/
def ends (line : Line) : List Ident :=
  if line.arrow.toRight then [line.left, line.right]
  else if line.arrow.toLeft then [line.right, line.left]
  else []

/-- Where the line leads from a state; none if the state is not one of its sources. -/
def target? (line : Line) (state : Ident) : Option Ident :=
  if line.arrow.toRight ∧ state = line.left then some line.right
  else if line.arrow.toLeft ∧ state = line.right then some line.left
  else none

def entryFrom? (line : Line) (state : Ident) : Option Entry :=
  (line.target? state).map fun next => .leadingTo next line.event

def isAnonymous (line : Line) : Bool := line.event.any fun event => event.label = ""

end Line

def Entry.label? (entry : Entry) : Option String := entry.event.map Ident.label

namespace Dictionary

/-! ## Dictionaries

The entries come from the lines that leave one state, in the order of the lines.
-/

def lastLabelled? (entries : List Entry) (label : String) : Option Entry :=
  entries.reverse.find? fun entry => entry.label? = some label

def lastDefault? (entries : List Entry) : Option Entry :=
  entries.getLast?.filter fun entry => entry.event.isNone

/-- Every label in the order of first appearance with the last entry that carries it, and then the
default entry. -/
def described (entries : List Entry) : Dictionary :=
  ⟨Assoc.tabulate (entries.filterMap Entry.label?).eraseDups (lastLabelled? entries) ++
    ((lastDefault? entries).map fun entry => (defaultKey, entry)).toList⟩

theorem lastLabelled?_append (before after : List Entry) (label : String) :
    lastLabelled? (before ++ after) label =
      (lastLabelled? after label).or (lastLabelled? before label) := by
  rw [lastLabelled?, List.reverse_append, List.find?_append]
  rfl

theorem lastLabelled?_concat (entries : List Entry) (entry : Entry) (label : String) :
    lastLabelled? (entries ++ [entry]) label =
      if entry.label? = some label then some entry else lastLabelled? entries label := by
  rw [lastLabelled?_append]
  by_cases h : entry.label? = some label <;> simp [lastLabelled?, h]

theorem lastLabelled?_eq_none_iff {entries : List Entry} {label : String} :
    lastLabelled? entries label = none ↔ ∀ entry ∈ entries, entry.label? ≠ some label := by
  simp [lastLabelled?]

theorem lastDefault?_concat (entries : List Entry) (entry : Entry) :
    lastDefault? (entries ++ [entry]) = if entry.event.isNone then some entry else none := by
  simp [lastDefault?, Option.filter]

theorem isSome_lastLabelled? {entries : List Entry} {label : String} :
    (lastLabelled? entries label).isSome ↔ label ∈ entries.filterMap Entry.label? := by
  simp [lastLabelled?, List.find?_isSome, List.mem_filterMap]

theorem defaultKey_not_mem_labels {entries : List Entry}
    (h : ∀ entry ∈ entries, entry.label? ≠ some defaultKey) :
    defaultKey ∉ (Assoc.tabulate (entries.filterMap Entry.label?).eraseDups
      (lastLabelled? entries)).map Prod.fst := by
  intro hmem
  obtain ⟨⟨key, entry⟩, hentry, rfl⟩ := List.mem_map.1 hmem
  obtain ⟨hkey, -⟩ := Assoc.mem_tabulate.1 hentry
  obtain ⟨first, hfirst, hlabel⟩ := List.mem_filterMap.1 (List.mem_eraseDups.1 hkey)
  exact h first hfirst hlabel

theorem described_concat {entries : List Entry} {entry : Entry}
    (h : ∀ e ∈ entries, e.label? ≠ some defaultKey) (hentry : entry.label? ≠ some defaultKey) :
    described (entries ++ [entry]) = (described entries).place entry := by
  have hnamed := defaultKey_not_mem_labels h
  cases hevent : entry.event with
  | none =>
      have hlabel : entry.label? = none := by simp [Entry.label?, hevent]
      have hlast : lastLabelled? (entries ++ [entry]) = lastLabelled? entries := by
        funext label
        simp [lastLabelled?_concat, hlabel]
      simp only [described, place, hevent, insert, hlast, lastDefault?_concat,
        List.filterMap_append, List.filterMap_cons, hlabel, List.filterMap_nil, List.append_nil,
        Assoc.put_append_of_not_mem hnamed]
      cases lastDefault? entries <;> simp [Assoc.put]
  | some event =>
      have hlabel : entry.label? = some event.label := by simp [Entry.label?, hevent]
      have hne : event.label ≠ defaultKey := fun heq => hentry (hlabel.trans (congrArg some heq))
      have herase : (described entries).erase defaultKey =
          ⟨Assoc.tabulate (entries.filterMap Entry.label?).eraseDups (lastLabelled? entries)⟩ := by
        have hsplit := Assoc.erase_of_not_mem hnamed
        simp only [Assoc.erase] at hsplit
        simp only [described, erase, Assoc.erase, List.filter_append, hsplit, mk.injEq]
        cases lastDefault? entries <;> simp
      have hput := Assoc.put_tabulate (Assoc.nodup_eraseDups (entries.filterMap Entry.label?))
        (lastLabelled? entries)
        (fun _ hmem => isSome_lastLabelled?.2 (List.mem_eraseDups.1 hmem)) event.label entry
      have hlast : lastLabelled? (entries ++ [entry]) =
          fun label => if label = event.label then some entry else lastLabelled? entries label := by
        funext label
        simp [lastLabelled?_concat, hlabel, eq_comm]
      simp only [place, hevent, herase, insert, hput]
      simp [described, hlast, hlabel, lastDefault?_concat, hevent, Assoc.eraseDups_concat]

end Dictionary

/-! ## Tables -/

namespace Line

theorem foldl_moves_addKey (line : Line) (states : List Ident) :
    line.moves.foldl (fun keys move => Assoc.addKey (Assoc.addKey keys move.1) move.2) states =
      line.ends.foldl Assoc.addKey states := by
  obtain ⟨number, ⟨toRight, toLeft⟩, left, right, event⟩ := line
  cases toRight <;> cases toLeft <;>
    simp [moves, ends, Assoc.addKey_of_mem, Assoc.mem_addKey]

theorem foldl_moves_addKey_source (line : Line) (states : List Ident) :
    line.moves.foldl (fun keys move => Assoc.addKey keys move.1)
      (line.ends.foldl Assoc.addKey states) = line.ends.foldl Assoc.addKey states := by
  obtain ⟨number, ⟨toRight, toLeft⟩, left, right, event⟩ := line
  cases toRight <;> cases toLeft <;>
    simp [moves, ends, Assoc.addKey_of_mem, Assoc.mem_addKey]

theorem foldl_moves_place (line : Line) {event : Option Ident}
    (h : ∀ e, event = some e → e.label ≠ defaultKey) (state : Ident) (d : Dictionary) :
    line.moves.foldl (fun d move =>
        if state = move.1 then d.place (.leadingTo move.2 event) else d) d =
      match line.target? state with
      | none => d
      | some next => d.place (.leadingTo next event) := by
  -- A state that is both ends of the line gets the same entry once for each direction.
  have htwice : ∀ next, (d.place (.leadingTo next event)).place (.leadingTo next event) =
      d.place (.leadingTo next event) := fun next => Dictionary.place_place h d
  obtain ⟨number, ⟨toRight, toLeft⟩, left, right, _⟩ := line
  by_cases hleft : state = left
  · subst hleft
    by_cases hright : state = right
    · subst hright
      cases toRight <;> cases toLeft <;> simp [moves, target?, htwice]
    · cases toRight <;> cases toLeft <;> simp [moves, target?, hright]
  · by_cases hright : state = right
    · subst hright
      cases toRight <;> cases toLeft <;> simp [moves, target?, hleft]
    · cases toRight <;> cases toLeft <;> simp [moves, target?, hleft, hright]

theorem mem_moves_iff {line : Line} {state next : Ident} :
    (state, next) ∈ line.moves ↔ line.target? state = some next := by
  obtain ⟨number, ⟨toRight, toLeft⟩, left, right, event⟩ := line
  by_cases hleft : state = left <;> by_cases hright : state = right <;>
    cases toRight <;> cases toLeft <;> simp_all [moves, target?, eq_comm]

theorem mem_ends_of_target? {line : Line} {state next : Ident}
    (h : line.target? state = some next) : state ∈ line.ends ∧ next ∈ line.ends := by
  obtain ⟨number, ⟨toRight, toLeft⟩, left, right, event⟩ := line
  by_cases hleft : state = left <;> by_cases hright : state = right <;>
    cases toRight <;> cases toLeft <;> simp_all [ends, target?]

theorem entryFrom?_of_not_mem_ends {line : Line} {state : Ident} (h : state ∉ line.ends) :
    line.entryFrom? state = none := by
  rw [entryFrom?, Option.map_eq_none_iff, Option.eq_none_iff_forall_ne_some]
  intro next htarget
  exact h (mem_ends_of_target? htarget).1

theorem label?_entryFrom?_ne {line : Line} (h : line.isAnonymous = false) {state : Ident}
    {entry : Entry} (hentry : line.entryFrom? state = some entry) :
    entry.label? ≠ some defaultKey := by
  obtain ⟨next, -, rfl⟩ := Option.map_eq_some_iff.1 hentry
  cases hevent : line.event with
  | none => simp [Entry.label?, Entry.leadingTo]
  | some event => simpa [isAnonymous, hevent, Entry.label?, Entry.leadingTo, defaultKey] using h

theorem label?_ne_of_mem_entries {lines : List Line}
    (h : ∀ line ∈ lines, line.isAnonymous = false) (state : Ident) :
    ∀ entry ∈ lines.filterMap (·.entryFrom? state), entry.label? ≠ some defaultKey := by
  intro entry hentry
  obtain ⟨line, hline, hfrom⟩ := List.mem_filterMap.1 hentry
  exact label?_entryFrom?_ne (h line hline) hfrom

end Line

namespace Table

/-- The ends of the lines in the order of first appearance, each with the dictionary that the lines
leaving it describe. -/
def described (lines : List Line) : Table :=
  tabulate (lines.flatMap Line.ends).eraseDups fun state =>
    .described (lines.filterMap (·.entryFrom? state))

variable {states : List Ident} {dictionary : Ident → Dictionary}

theorem addLine_tabulate (h : Supports states dictionary) {line : Line}
    (hline : line.isAnonymous = false) :
    (tabulate states dictionary).addLine line =
      .ok (tabulate (line.ends.foldl Assoc.addKey states) fun state =>
        match line.entryFrom? state with
        | none => dictionary state
        | some entry => (dictionary state).place entry) := by
  obtain ⟨hdefault, hsupports⟩ := foldl_addDefault_tabulate h line.moves
  simp only [Line.foldl_moves_addKey] at hdefault hsupports
  cases hevent : line.event with
  | none =>
      simp only [addLine, hdefault, hevent, Except.ok.injEq]
      congr 1
      funext state
      rw [Line.foldl_moves_place line (by simp)]
      cases htarget : line.target? state <;> simp [Line.entryFrom?, htarget, hevent]
  | some event =>
      have hlabel : event.label ≠ "" := by simpa [Line.isAnonymous, hevent] using hline
      have hnamed := foldl_addNamed_tabulate hsupports event line.moves
      simp only [addLine, hdefault, hevent, if_neg hlabel, hnamed,
        Line.foldl_moves_addKey_source, Except.ok.injEq]
      congr 1
      funext state
      rw [Line.foldl_moves_place line (by rintro _ ⟨rfl⟩; exact hlabel),
        Line.foldl_moves_place line (by simp)]
      cases htarget : line.target? state <;>
        simp [Line.entryFrom?, htarget, hevent, Dictionary.place_default_place]

theorem supports_described (lines : List Line) :
    Supports (lines.flatMap Line.ends).eraseDups fun state =>
      .described (lines.filterMap (·.entryFrom? state)) where
  nodup := Assoc.nodup_eraseDups _
  eq_empty := by
    intro state hstate
    have hnone : lines.filterMap (·.entryFrom? state) = [] := by
      rw [List.filterMap_eq_nil_iff]
      intro line hline
      have hends : state ∉ line.ends := fun hmem =>
        hstate (List.mem_eraseDups.2 (List.mem_flatMap.2 ⟨line, hline, hmem⟩))
      exact line.entryFrom?_of_not_mem_ends hends
    rw [hnone]
    rfl

theorem addLine_described {lines : List Line} (hlines : ∀ line ∈ lines, line.isAnonymous = false)
    {line : Line} (hline : line.isAnonymous = false) :
    (described lines).addLine line = .ok (described (lines ++ [line])) := by
  rw [described, addLine_tabulate (supports_described lines) hline, described]
  congr 2
  · rw [List.flatMap_append, Assoc.eraseDups_append_eq_foldl, List.flatMap_singleton]
  · funext state
    rw [List.filterMap_append]
    cases hentry : line.entryFrom? state with
    | none => simp [hentry]
    | some entry =>
        have hconcat := Dictionary.described_concat (Line.label?_ne_of_mem_entries hlines state)
          (Line.label?_entryFrom?_ne hline hentry)
        simp [hentry, hconcat]

theorem foldlM_addLine_described {lines more : List Line}
    (hlines : ∀ line ∈ lines, line.isAnonymous = false)
    (hmore : ∀ line ∈ more, line.isAnonymous = false) :
    more.foldlM addLine (described lines) = .ok (described (lines ++ more)) := by
  induction more generalizing lines with
  | nil => simp [pure, Except.pure]
  | cons line more ih =>
      have hline := hmore line (by simp)
      have hnext : ∀ l ∈ lines ++ [line], l.isAnonymous = false := by
        intro l hl
        rcases List.mem_append.1 hl with hl | hl
        · exact hlines l hl
        · rw [List.mem_singleton.1 hl]
          exact hline
      have hrest := ih hnext fun l hl => hmore l (by simp [hl])
      rw [List.append_assoc] at hrest
      rw [List.foldlM_cons, addLine_described hlines hline]
      exact hrest

theorem addLine_of_isAnonymous {line : Line} (h : line.isAnonymous = true) (t : Table) :
    t.addLine line = .error (.anonymousEvent line.number) := by
  obtain ⟨number, arrow, left, right, event⟩ := line
  cases event with
  | none => simp [Line.isAnonymous] at h
  | some event =>
      have hlabel : event.label = "" := by simpa [Line.isAnonymous] using h
      simp [addLine, hlabel]

theorem build_eq_ok_described {lines : List Line}
    (h : ∀ line ∈ lines, line.isAnonymous = false) : build lines = .ok (described lines) := by
  have hnil : described [] = empty := rfl
  have hbuild := @foldlM_addLine_described [] lines (by simp) h
  rwa [hnil, List.nil_append] at hbuild

theorem build_of_find?_isAnonymous {lines : List Line} {line : Line}
    (h : lines.find? Line.isAnonymous = some line) :
    build lines = .error (.anonymousEvent line.number) := by
  obtain ⟨hline, before, after, rfl, hbefore⟩ := List.find?_eq_some_iff_append.1 h
  have hdescribed : build before = .ok (described before) :=
    build_eq_ok_described fun l hl => by simpa using hbefore l hl
  rw [build] at hdescribed
  rw [build, List.foldlM_append, hdescribed]
  simp only [bind, Except.bind, List.foldlM_cons, addLine_of_isAnonymous hline]

theorem build_eq_ok_iff {lines : List Line} {t : Table} :
    build lines = .ok t ↔ (∀ line ∈ lines, line.isAnonymous = false) ∧ t = described lines := by
  constructor
  · intro h
    have hlines : ∀ line ∈ lines, line.isAnonymous = false := by
      cases hfind : lines.find? Line.isAnonymous with
      | none => simpa using hfind
      | some line =>
          rw [build_of_find?_isAnonymous hfind] at h
          contradiction
    rw [build_eq_ok_described hlines, Except.ok.injEq] at h
    exact ⟨hlines, h.symm⟩
  · rintro ⟨hlines, rfl⟩
    exact build_eq_ok_described hlines

/-- The meaning of a diagram: the builder fails at the first line with an event whose label is
empty, and otherwise gives the table that the lines as a whole describe. -/
theorem build_eq (lines : List Line) :
    build lines =
      match lines.find? Line.isAnonymous with
      | some line => .error (.anonymousEvent line.number)
      | none => .ok (described lines) := by
  split
  · next line h => exact build_of_find?_isAnonymous h
  · next h =>
      apply build_eq_ok_described
      intro line hline
      simpa using List.find?_eq_none.1 h line hline

end Table

end StateDiagram
