import StateDiagram.Proofs.Matrix

/-!
# Events that share a label

The matrix has a column for each event, but a dictionary has one entry for each label.  Of the
events of one label that leave a state only the one of the last line is left, so the transitions
of the others are missing from the matrix.
-/

namespace StateDiagram

namespace Line

/-- The line has the state as a source and is gated by the event. -/
def Leaves (line : Line) (state event : Ident) : Prop :=
  line.event = some event ∧ ∃ next, (state, next) ∈ line.moves

theorem entryFrom?_of_mem_moves {line : Line} {state next : Ident}
    (h : (state, next) ∈ line.moves) :
    line.entryFrom? state = some (.leadingTo next line.event) := by
  rw [entryFrom?, mem_moves_iff.1 h, Option.map_some]

theorem leaves_iff {line : Line} {state event : Ident} :
    line.Leaves state event ↔
      ∃ entry, line.entryFrom? state = some entry ∧ entry.event = some event := by
  constructor
  · rintro ⟨hevent, next, hmove⟩
    exact ⟨_, entryFrom?_of_mem_moves hmove, hevent⟩
  · rintro ⟨entry, hentry, hevent⟩
    obtain ⟨next, htarget, rfl⟩ := Option.map_eq_some_iff.1 hentry
    exact ⟨hevent, next, mem_moves_iff.2 htarget⟩

theorem lastLabelled?_eq_none_iff_leaves {lines : List Line} {state : Ident} {label : String} :
    Dictionary.lastLabelled? (lines.filterMap (·.entryFrom? state)) label = none ↔
      ∀ line ∈ lines, ∀ event, line.Leaves state event → event.label ≠ label := by
  rw [Dictionary.lastLabelled?_eq_none_iff]
  constructor
  · intro h line hline event hleaves hlabel
    obtain ⟨entry, hentry, hevent⟩ := leaves_iff.1 hleaves
    refine h entry (List.mem_filterMap.2 ⟨line, hline, hentry⟩) ?_
    rw [Entry.label?, hevent, Option.map_some, hlabel]
  · intro h entry hmem hlabel
    obtain ⟨line, hline, hentry⟩ := List.mem_filterMap.1 hmem
    obtain ⟨event, hevent, heq⟩ := Option.map_eq_some_iff.1 hlabel
    exact h line hline event (leaves_iff.2 ⟨entry, hentry, hevent⟩) heq

end Line

namespace Table

/-- The matrix has the transition: in the row of the source and the column of the event the number
of the next state. -/
def Holds (t : Table) (source event next : Ident) : Prop :=
  ∃ i j n, t.index.stateIndex? source = some i ∧ t.index.eventIndex? event = some j ∧
    t.index.stateIndex? next = some n ∧ t.matrix.get? i j = some n

theorem WellFormed.holds_iff {t : Table} (h : t.WellFormed) {source event next : Ident}
    {d : Dictionary} (hd : t.get? source = some d) :
    t.Holds source event next ↔
      ∃ entry, d.get? event.label = some entry ∧ entry.event = some event ∧ entry.next = next := by
  have hrow := h.get?_eq_some_iff.1 hd
  obtain ⟨i, hi⟩ := List.mem_iff_getElem?.1 hrow
  have hdictionary : t.dictionary? i = some d := dictionary?_eq_some_iff.2 ⟨source, hi⟩
  have hposition : t.position? source = some i :=
    h.position?_eq_some_iff.2 (state?_eq_some_iff.2 ⟨d, hi⟩)
  simp only [Holds, h.stateIndex?_eq, hposition, Option.some.injEq]
  constructor
  · rintro ⟨_, j, n, rfl, hj, hn, hcell⟩
    obtain ⟨entry, hget, hevent, hnext⟩ :=
      (h.get?_matrix_eq_some_iff hdictionary (eventIndex?_eq_some_iff.1 hj)).1 hcell
    refine ⟨entry, hget, hevent, ?_⟩
    have hsame := (h.position?_eq_some_iff.1 hnext).symm.trans (h.position?_eq_some_iff.1 hn)
    exact Option.some.inj hsame
  · rintro ⟨entry, hget, hevent, rfl⟩
    have hentry := (h.dictionary _ hrow).get?_eq_some_iff.1 hget
    obtain ⟨n, hn, -⟩ := h.exists_position?_next hdictionary hentry
    have hmem : event ∈ t.index.events :=
      h.mem_index_events.2 ⟨_, hrow, _, entry, hentry, hevent⟩
    obtain ⟨j, hj⟩ := List.mem_iff_getElem?.1 hmem
    refine ⟨i, j, n, rfl, eventIndex?_eq_some_iff.2 hj, hn, ?_⟩
    exact (h.get?_matrix_eq_some_iff hdictionary hj).2 ⟨entry, hget, hevent, hn⟩

theorem get?_described {lines : List Line} {line : Line} (hline : line ∈ lines)
    {source next : Ident} (hmove : (source, next) ∈ line.moves) :
    (described lines).get? source =
      some (.described (lines.filterMap (·.entryFrom? source))) := by
  have hends := (Line.mem_ends_of_target? (Line.mem_moves_iff.1 hmove)).1
  rw [described, get?_tabulate, if_pos]
  exact List.mem_eraseDups.2 (List.mem_flatMap.2 ⟨line, hline, hends⟩)

variable {before after : List Line} {line : Line} {source event next : Ident} {t : Table}

theorem exists_get?_label (hbuild : build (before ++ line :: after) = .ok t)
    (hevent : line.event = some event) (hmove : (source, next) ∈ line.moves) :
    ∃ d, t.get? source = some d ∧ d.get? event.label =
      (Dictionary.lastLabelled? (after.filterMap (·.entryFrom? source)) event.label).or
        (some (.leadingTo next (some event))) := by
  obtain ⟨hlines, rfl⟩ := build_eq_ok_iff.1 hbuild
  have hline : line ∈ before ++ line :: after := by simp
  have hentry : line.entryFrom? source = some (.leadingTo next (some event)) := by
    rw [Line.entryFrom?_of_mem_moves hmove, hevent]
  have hlabel : event.label ≠ defaultKey := by
    have hne := Line.label?_entryFrom?_ne (hlines line hline) hentry
    simpa [Entry.label?, Entry.leadingTo] using hne
  -- Lines before this one are shadowed by it, so only the later ones count.
  have hentries : (before ++ line :: after).filterMap (·.entryFrom? source) =
      before.filterMap (·.entryFrom? source) ++ [.leadingTo next (some event)] ++
        after.filterMap (·.entryFrom? source) := by
    simp [hentry]
  refine ⟨_, get?_described hline hmove, ?_⟩
  rw [Dictionary.get?_described (Line.label?_ne_of_mem_entries hlines source)
    (Line.eq_leadingTo_of_mem_entries _ source) hlabel, hentries,
    Dictionary.lastLabelled?_append, Dictionary.lastLabelled?_concat,
    if_pos (by simp [Entry.label?, Entry.leadingTo])]

/-- A transition that no later line of its source and event overrides is in the matrix exactly if
no later line leaves the source under the same label.  If it is not, its event has no transition
there at all. -/
theorem holds_iff_label_ne (hbuild : build (before ++ line :: after) = .ok t)
    (hevent : line.event = some event) (hmove : (source, next) ∈ line.moves)
    (hlast : ∀ later ∈ after, ¬ later.Leaves source event) :
    (t.Holds source event next ↔
      ∀ later ∈ after, ∀ other, later.Leaves source other → other.label ≠ event.label) ∧
    ∀ other, t.Holds source event other → t.Holds source event next := by
  obtain ⟨d, hd, hget⟩ := exists_get?_label hbuild hevent hmove
  have h := wellFormed_of_build hbuild
  rw [← Line.lastLabelled?_eq_none_iff_leaves]
  simp only [h.holds_iff hd, hget]
  cases hlater : Dictionary.lastLabelled? (after.filterMap (·.entryFrom? source)) event.label with
  | none => simp [Entry.leadingTo]
  | some entry =>
      -- The later line took the key, and by assumption its event is another one.
      have hother : entry.event ≠ some event := by
        intro heq
        obtain ⟨hmem, -⟩ := Dictionary.mem_of_lastLabelled? hlater
        obtain ⟨later, hline, hentry⟩ := List.mem_filterMap.1 hmem
        exact hlast later hline (Line.leaves_iff.2 ⟨entry, hentry, heq⟩)
      simp [hother]

/-- Neither an earlier line of the same label nor one that leaves another state does harm. -/
theorem holds_iff_label_ne_of_go :
    ∃ t, build ([⟨1, ⟨true, false⟩, .text "A", .text "C", some (.behavior ⟨1, "go"⟩)⟩] ++
        ⟨2, ⟨true, false⟩, .text "A", .text "B", some (.behavior ⟨0, "go"⟩)⟩ ::
        [⟨3, ⟨true, false⟩, .text "B", .text "C", some (.behavior ⟨1, "go"⟩)⟩]) = .ok t ∧
      t.Holds (.text "A") (.behavior ⟨0, "go"⟩) (.text "B") := by
  refine ⟨_, rfl, (@holds_iff_label_ne
    [⟨1, ⟨true, false⟩, .text "A", .text "C", some (.behavior ⟨1, "go"⟩)⟩]
    [⟨3, ⟨true, false⟩, .text "B", .text "C", some (.behavior ⟨1, "go"⟩)⟩]
    ⟨2, ⟨true, false⟩, .text "A", .text "B", some (.behavior ⟨0, "go"⟩)⟩
    _ _ _ _ rfl rfl (by decide) ?_).1.2 ?_⟩
  · simp [Line.Leaves]
  · simp [Line.Leaves, Line.moves, Ident.text]

/-- Two callables of one name leave `A`, and the first of them gets neither a number nor a cell. -/
theorem lost_transition_of_go :
    ∃ t, build [⟨1, ⟨true, false⟩, .text "A", .text "B", some (.behavior ⟨0, "go"⟩)⟩,
        ⟨2, ⟨true, false⟩, .text "A", .text "C", some (.behavior ⟨1, "go"⟩)⟩] = .ok t ∧
      ¬ Line.Leaves ⟨2, ⟨true, false⟩, .text "A", .text "C", some (.behavior ⟨1, "go"⟩)⟩
        (.text "A") (.behavior ⟨0, "go"⟩) ∧
      t.index.eventIndex? (.behavior ⟨0, "go"⟩) = none ∧
      ¬ t.Holds (.text "A") (.behavior ⟨0, "go"⟩) (.text "B") := by
  have hnone : ∀ {t : Table}, t.index.eventIndex? (.behavior ⟨0, "go"⟩) = none →
      ¬ t.Holds (.text "A") (.behavior ⟨0, "go"⟩) (.text "B") := by
    rintro t h ⟨i, j, n, -, hj, -⟩
    rw [h] at hj
    contradiction
  refine ⟨_, rfl, ?_, by decide, hnone (by decide)⟩
  simp [Line.Leaves]

end Table

end StateDiagram
