import StateDiagram.Proofs.Index

/-!
# The matrix of a well-formed table

Row and column are table position and event number, and a cell holds the position of the target of
the one entry that the event gates there.
-/

namespace StateDiagram

theorem TransitionMatrix.cell?_eq (index : Index) (d : Dictionary) (event : Ident) :
    cell? index d event =
      (d.named.find? fun named => named.2.event = some event).bind fun named =>
        index.stateIndex? named.2.next := rfl

/-- The dictionary is keyed by labels and the matrix by events: the entry under the event's label
counts only if it is gated by that very event. -/
theorem Dictionary.WellFormed.cell?_eq_some_iff {d : Dictionary} (h : d.WellFormed) {index : Index}
    {event : Ident} {n : Nat} :
    TransitionMatrix.cell? index d event = some n ↔
      ∃ entry, d.get? event.label = some entry ∧ entry.event = some event ∧
        index.stateIndex? entry.next = some n := by
  rw [TransitionMatrix.cell?_eq]
  constructor
  · intro hcell
    obtain ⟨⟨key, entry⟩, hfind, hnext⟩ := Option.bind_eq_some_iff.1 hcell
    have hevent : entry.event = some event := by simpa using List.find?_some hfind
    have hmem := (h.mem_named_iff.1 (List.mem_of_find?_eq_some hfind)).1
    exact ⟨entry, h.get?_label_of_mem hmem hevent, hevent, hnext⟩
  · rintro ⟨entry, hget, hevent, hnext⟩
    have hnamed : (event.label, entry) ∈ d.named :=
      h.mem_named_iff.2 ⟨h.get?_eq_some_iff.1 hget, event, hevent⟩
    cases hfind : d.named.find? fun named => named.2.event = some event with
    | none =>
        have habsent := List.find?_eq_none.1 hfind _ hnamed
        simp [hevent] at habsent
    | some found =>
        obtain ⟨key, e⟩ := found
        have he : e.event = some event := by simpa using List.find?_some hfind
        have hmem := (h.mem_named_iff.1 (List.mem_of_find?_eq_some hfind)).1
        have hsame : e = entry := by
          have hget' := h.get?_label_of_mem hmem he
          rw [hget, Option.some.injEq] at hget'
          exact hget'.symm
        rw [hsame]
        exact hnext

namespace Table.WellFormed

variable {t : Table}

theorem matrix_rows (h : t.WellFormed) :
    t.matrix.rows = t.rows.map fun row => TransitionMatrix.rowOf t.index row.2 := by
  simp only [matrix, TransitionMatrix.ofTable, h.index_states, states, List.map_map]
  apply List.map_congr_left
  rintro ⟨state, d⟩ hrow
  have hget : t.get? state = some d := h.get?_eq_some_iff.2 hrow
  simp [hget]

theorem get?_matrix (h : t.WellFormed) {i j : Nat} {d : Dictionary} {event : Ident}
    (hd : t.dictionary? i = some d) (hevent : t.index.event? j = some event) :
    t.matrix.get? i j = TransitionMatrix.cell? t.index d event := by
  obtain ⟨state, hrow⟩ := dictionary?_eq_some_iff.1 hd
  rw [Index.event?] at hevent
  simp [TransitionMatrix.get?, TransitionMatrix.row?, h.matrix_rows, hrow,
    TransitionMatrix.rowOf, hevent]

theorem get?_matrix_eq_some_iff (h : t.WellFormed) {i j n : Nat} {d : Dictionary} {event : Ident}
    (hd : t.dictionary? i = some d) (hevent : t.index.event? j = some event) :
    t.matrix.get? i j = some n ↔
      ∃ entry, d.get? event.label = some entry ∧ entry.event = some event ∧
        t.position? entry.next = some n := by
  obtain ⟨state, hrow⟩ := dictionary?_eq_some_iff.1 hd
  have hwell := h.dictionary _ (List.mem_of_getElem? hrow)
  rw [h.get?_matrix hd hevent, hwell.cell?_eq_some_iff]
  simp only [h.stateIndex?_eq]

end Table.WellFormed

end StateDiagram
