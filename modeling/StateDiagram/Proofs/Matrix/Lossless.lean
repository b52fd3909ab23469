import Mathlib.Data.List.Nodup
import StateDiagram.Proofs.Matrix

/-!
# The matrix keeps every named entry

A matrix can also be filled by writing: each named entry puts its next state into the cell of its
event.  Nothing is lost on the way, since in a built table every event and every next state has an
index and no two entries of a state are written to one cell.
-/

namespace StateDiagram

/-- The number of the event that gates the entry. -/
def Index.column? (index : Index) (entry : Entry) : Option Nat :=
  entry.event.bind index.eventIndex?

namespace TransitionMatrix

/-! ## Writing entries -/

/-- An entry whose event or next state has no index is passed over. -/
def write (index : Index) (row : Row) (entry : Entry) : Row :=
  match index.column? entry, index.stateIndex? entry.next with
  | some j, some n => row.set j (some n)
  | _, _ => row

def writeAll (index : Index) (d : Dictionary) (row : Row) : Row :=
  (d.named.map Prod.snd).foldl (write index) row

def blankRow (index : Index) : Row := List.replicate index.events.length none

/-- A state without an index is passed over. -/
def writeRow (index : Index) (rows : List Row) (row : Ident × Dictionary) : List Row :=
  match index.stateIndex? row.1 with
  | some i => rows.modify i (writeAll index row.2)
  | none => rows

/-- A blank matrix into which the entries of all states are written one after another. -/
def written (t : Table) (index : Index) : TransitionMatrix :=
  ⟨t.rows.foldl (writeRow index) (List.replicate index.states.length (blankRow index))⟩

variable {index : Index}

/-- What an entry leaves in a column, if it is written there. -/
def mark? (index : Index) (j : Nat) (entry : Entry) : Option Nat :=
  if index.column? entry = some j then index.stateIndex? entry.next else none

theorem mark?_eq_some_iff {j n : Nat} {entry : Entry} :
    mark? index j entry = some n ↔
      index.column? entry = some j ∧ index.stateIndex? entry.next = some n := by
  simp [mark?]

theorem length_foldl_write (entries : List Entry) (row : Row) :
    (entries.foldl (write index) row).length = row.length := by
  induction entries generalizing row with
  | nil => rfl
  | cons entry entries ih =>
      rw [List.foldl_cons, ih]
      unfold write
      split <;> simp

theorem getElem?_write {row : Row} {j : Nat} (hj : j < row.length) (entry : Entry) :
    (write index row entry)[j]? = ((mark? index j entry).map some).or row[j]? := by
  unfold write mark?
  cases hcolumn : index.column? entry with
  | none => simp
  | some k =>
      cases hnext : index.stateIndex? entry.next with
      | none => simp
      | some n =>
          by_cases hk : k = j
          · simp [hk, hj]
          · simp [hk]

/-- The last entry that is written to a cell stays there. -/
theorem getElem?_foldl_write {row : Row} {j : Nat} (hj : j < row.length) (entries : List Entry) :
    (entries.foldl (write index) row)[j]? =
      ((entries.reverse.findSome? (mark? index j)).map some).or row[j]? := by
  induction entries using List.reverseRecOn with
  | nil => rfl
  | append_singleton entries entry ih =>
      have hlt : j < (entries.foldl (write index) row).length := by
        rwa [length_foldl_write]
      rw [List.foldl_concat, getElem?_write hlt, ih, List.reverse_concat, List.findSome?_cons]
      cases mark? index j entry <;> rfl

theorem modify_append_cons {α : Type} (before : List α) (a : α) (after : List α) (f : α → α) :
    (before ++ a :: after).modify before.length f = before ++ f a :: after := by
  induction before with
  | nil => rfl
  | cons first before ih =>
      rw [List.cons_append, List.length_cons, List.modify_succ_cons, ih, List.cons_append]

/-- Where states are numbered in their order, each of them is written into the next blank row. -/
theorem foldl_writeRow {rows : List (Ident × Dictionary)} {before : List Row}
    (h : ∀ k row, rows[k]? = some row → index.stateIndex? row.1 = some (before.length + k))
    (blank : Row) :
    rows.foldl (writeRow index) (before ++ List.replicate rows.length blank) =
      before ++ rows.map fun row => writeAll index row.2 blank := by
  induction rows generalizing before with
  | nil => rfl
  | cons row rows ih =>
      have hrow : index.stateIndex? row.1 = some before.length := h 0 row rfl
      have hstep : writeRow index (before ++ List.replicate (rows.length + 1) blank) row =
          (before ++ [writeAll index row.2 blank]) ++ List.replicate rows.length blank := by
        simp only [writeRow, hrow, List.replicate_succ, modify_append_cons, List.append_assoc,
          List.singleton_append]
      have hrest : ∀ k other, rows[k]? = some other → index.stateIndex? other.1 =
          some ((before ++ [writeAll index row.2 blank]).length + k) := by
        intro k other hother
        rw [h (k + 1) other hother, List.length_append, List.length_singleton]
        congr 1
        omega
      rw [List.foldl_cons, List.length_cons, hstep, ih hrest, List.append_assoc,
        List.singleton_append, List.map_cons]

end TransitionMatrix

/-! ## Entries and their columns -/

namespace Dictionary.WellFormed

variable {d : Dictionary}

theorem named_nodup (h : d.WellFormed) : d.named.Nodup :=
  (List.Nodup.of_map _ h.keys_nodup).filter _

/-- A key is the label of its event, so an event gates one entry at most. -/
theorem eq_of_event_eq (h : d.WellFormed) {named other : String × Entry} (hnamed : named ∈ d.named)
    (hother : other ∈ d.named) (hevent : named.2.event = other.2.event) : named = other := by
  obtain ⟨hmem, event, hgate⟩ := h.mem_named_iff.1 hnamed
  obtain ⟨hmem', -⟩ := h.mem_named_iff.1 hother
  have hentry : named.2 = other.2 := by
    have hget := h.get?_label_of_mem hmem hgate
    rw [h.get?_label_of_mem hmem' (hevent.symm.trans hgate), Option.some.injEq] at hget
    exact hget.symm
  exact Prod.ext (by rw [← h.key_eq hmem, ← h.key_eq hmem', hentry]) hentry

end Dictionary.WellFormed

namespace Table

variable {t : Table} {d : Dictionary} {i j n : Nat}

theorem column?_eq_some_iff {entry : Entry} :
    t.index.column? entry = some j ↔
      ∃ event, entry.event = some event ∧ t.index.event? j = some event := by
  simp only [Index.column?, Option.bind_eq_some_iff, eventIndex?_eq_some_iff]

namespace WellFormed

theorem dictionary_of_dictionary? (h : t.WellFormed) (hd : t.dictionary? i = some d) :
    d.WellFormed := by
  obtain ⟨state, hrow⟩ := dictionary?_eq_some_iff.1 hd
  exact h.dictionary _ (List.mem_of_getElem? hrow)

theorem exists_column? (h : t.WellFormed) (hd : t.dictionary? i = some d)
    {named : String × Entry} (hnamed : named ∈ d.named) :
    ∃ j, t.index.column? named.2 = some j := by
  obtain ⟨hentry, event, hevent⟩ := (h.dictionary_of_dictionary? hd).mem_named_iff.1 hnamed
  obtain ⟨state, hrow⟩ := dictionary?_eq_some_iff.1 hd
  have hmem : event ∈ t.index.events :=
    h.mem_index_events.2 ⟨_, List.mem_of_getElem? hrow, _, _, hentry, hevent⟩
  obtain ⟨j, hj⟩ := List.mem_iff_getElem?.1 hmem
  exact ⟨j, column?_eq_some_iff.2 ⟨event, hevent, hj⟩⟩

theorem eq_of_column?_eq (h : t.WellFormed) (hd : t.dictionary? i = some d)
    {named other : String × Entry} (hnamed : named ∈ d.named) (hother : other ∈ d.named)
    (hcolumn : t.index.column? named.2 = t.index.column? other.2) : named = other := by
  obtain ⟨j, hj⟩ := h.exists_column? hd hnamed
  obtain ⟨event, hevent, hindex⟩ := column?_eq_some_iff.1 hj
  obtain ⟨event', hevent', hindex'⟩ := column?_eq_some_iff.1 (hcolumn.symm.trans hj)
  obtain rfl : event = event' := Option.some.inj (hindex.symm.trans hindex')
  exact (h.dictionary_of_dictionary? hd).eq_of_event_eq hnamed hother
    (hevent.trans hevent'.symm)

/-! ## Cells of the matrix -/

theorem row?_matrix (h : t.WellFormed) :
    t.matrix.row? i = (t.dictionary? i).map (TransitionMatrix.rowOf t.index) := by
  rw [TransitionMatrix.row?, h.matrix_rows, List.getElem?_map, dictionary?, Option.map_map]
  rfl

theorem get?_matrix_eq_some_iff_named (h : t.WellFormed) :
    t.matrix.get? i j = some n ↔
      ∃ d named event, t.dictionary? i = some d ∧ named ∈ d.named ∧
        t.index.event? j = some event ∧ named.2.event = some event ∧
        t.state? n = some named.2.next := by
  constructor
  · intro hcell
    obtain ⟨row, hrow, hread⟩ := Option.bind_eq_some_iff.1 hcell
    obtain ⟨cell, hj, rfl⟩ := Option.bind_eq_some_iff.1 hread
    rw [h.row?_matrix] at hrow
    obtain ⟨d, hd, rfl⟩ := Option.map_eq_some_iff.1 hrow
    rw [TransitionMatrix.rowOf, List.getElem?_map] at hj
    obtain ⟨event, hevent, -⟩ := Option.map_eq_some_iff.1 hj
    obtain ⟨entry, hget, hgate, hnext⟩ := (h.get?_matrix_eq_some_iff hd hevent).1 hcell
    have hwell := h.dictionary_of_dictionary? hd
    have hnamed := hwell.mem_named_iff.2 ⟨hwell.get?_eq_some_iff.1 hget, event, hgate⟩
    exact ⟨d, _, event, hd, hnamed, hevent, hgate, h.position?_eq_some_iff.1 hnext⟩
  · rintro ⟨d, ⟨key, entry⟩, event, hd, hnamed, hevent, hgate, hnext⟩
    have hwell := h.dictionary_of_dictionary? hd
    have hget := hwell.get?_label_of_mem (hwell.mem_named_iff.1 hnamed).1 hgate
    exact (h.get?_matrix_eq_some_iff hd hevent).2
      ⟨entry, hget, hgate, h.position?_eq_some_iff.2 hnext⟩

theorem exists_cell?_of_named (h : t.WellFormed) (hd : t.dictionary? i = some d)
    {named : String × Entry} (hnamed : named ∈ d.named) {event : Ident}
    (hevent : named.2.event = some event) :
    ∃ n, t.position? named.2.next = some n ∧
      TransitionMatrix.cell? t.index d event = some n := by
  have hwell := h.dictionary_of_dictionary? hd
  obtain ⟨hentry, -⟩ := hwell.mem_named_iff.1 hnamed
  obtain ⟨n, hn, -⟩ := h.exists_position?_next hd hentry
  refine ⟨n, hn, hwell.cell?_eq_some_iff.2
    ⟨named.2, hwell.get?_label_of_mem hentry hevent, hevent, ?_⟩⟩
  rw [h.stateIndex?_eq, hn]

/-- The set cells of a row are those of the events that gate its entries. -/
theorem setCells_rowOf (h : t.WellFormed) (hd : t.dictionary? i = some d) :
    (TransitionMatrix.rowOf t.index d).setCells = d.named.length := by
  have hwell := h.dictionary_of_dictionary? hd
  let isSet : Ident → Bool := fun event => (TransitionMatrix.cell? t.index d event).isSome
  let gates : List (Option Ident) := d.named.map fun named => named.2.event
  have hset : ((t.index.events.filter isSet).map some).Nodup :=
    (t.events_nodup.filter isSet).map (Option.some_injective Ident)
  have hgates : gates.Nodup :=
    List.Nodup.map_on (fun _ ha _ hb => hwell.eq_of_event_eq ha hb) hwell.named_nodup
  have hperm : ((t.index.events.filter isSet).map some).Perm gates := by
    rw [List.perm_ext_iff_of_nodup hset hgates]
    intro gate
    simp only [gates, isSet, List.mem_map, List.mem_filter]
    constructor
    · rintro ⟨event, ⟨-, hsome⟩, rfl⟩
      obtain ⟨n, hn⟩ := Option.isSome_iff_exists.1 hsome
      obtain ⟨entry, hget, hgate, -⟩ := hwell.cell?_eq_some_iff.1 hn
      exact ⟨(event.label, entry),
        hwell.mem_named_iff.2 ⟨hwell.get?_eq_some_iff.1 hget, event, hgate⟩, hgate⟩
    · rintro ⟨named, hnamed, rfl⟩
      obtain ⟨j, hj⟩ := h.exists_column? hd hnamed
      obtain ⟨event, hevent, hindex⟩ := column?_eq_some_iff.1 hj
      obtain ⟨n, -, hcell⟩ := h.exists_cell?_of_named hd hnamed hevent
      exact ⟨event, ⟨List.mem_of_getElem? hindex, by rw [hcell]; rfl⟩, hevent.symm⟩
  calc
    (TransitionMatrix.rowOf t.index d).setCells = t.index.events.countP isSet := by
      rw [Row.setCells, TransitionMatrix.rowOf, List.countP_map]
      rfl
    _ = ((t.index.events.filter isSet).map some).length := by
      rw [List.countP_eq_length_filter, List.length_map]
    _ = d.named.length := by rw [hperm.length_eq, List.length_map]

/-! ## The written matrix -/

/-- Since no two entries are written to one cell, the last one that is written is the only one. -/
theorem findSome?_mark? (h : t.WellFormed) (hd : t.dictionary? i = some d) {event : Ident}
    (hevent : t.index.event? j = some event) :
    (d.named.map Prod.snd).reverse.findSome? (TransitionMatrix.mark? t.index j) =
      TransitionMatrix.cell? t.index d event := by
  have hwell := h.dictionary_of_dictionary? hd
  have hmark : ∀ {entry n}, entry ∈ (d.named.map Prod.snd).reverse →
      TransitionMatrix.mark? t.index j entry = some n →
      d.get? event.label = some entry ∧ entry.event = some event ∧
        t.index.stateIndex? entry.next = some n := by
    intro entry n hentry hn
    obtain ⟨hcolumn, hnext⟩ := TransitionMatrix.mark?_eq_some_iff.1 hn
    obtain ⟨other, hgate, hother⟩ := column?_eq_some_iff.1 hcolumn
    obtain rfl : event = other := Option.some.inj (hevent.symm.trans hother)
    obtain ⟨named, hnamed, rfl⟩ := List.mem_map.1 (List.mem_reverse.1 hentry)
    exact ⟨hwell.get?_label_of_mem (hwell.mem_named_iff.1 hnamed).1 hgate, hgate, hnext⟩
  apply Option.ext
  intro n
  rw [hwell.cell?_eq_some_iff]
  constructor
  · intro hfound
    obtain ⟨entry, hentry, hn⟩ := List.exists_of_findSome?_eq_some hfound
    exact ⟨entry, hmark hentry hn⟩
  · rintro ⟨entry, hget, hgate, hnext⟩
    have hnamed := hwell.mem_named_iff.2 ⟨hwell.get?_eq_some_iff.1 hget, event, hgate⟩
    have hmem : entry ∈ (d.named.map Prod.snd).reverse :=
      List.mem_reverse.2 (List.mem_map.2 ⟨_, hnamed, rfl⟩)
    have hn := TransitionMatrix.mark?_eq_some_iff.2
      ⟨column?_eq_some_iff.2 ⟨event, hgate, hevent⟩, hnext⟩
    obtain ⟨found, hfound⟩ := Option.isSome_iff_exists.1
      (List.findSome?_isSome_iff.2 ⟨entry, hmem, Option.isSome_iff_exists.2 ⟨n, hn⟩⟩)
    obtain ⟨other, hother, hmarked⟩ := List.exists_of_findSome?_eq_some hfound
    obtain ⟨hsame, -, hreached⟩ := hmark hother hmarked
    obtain rfl : entry = other := Option.some.inj (hget.symm.trans hsame)
    rw [hfound, ← hreached, hnext]

theorem writeAll_blankRow (h : t.WellFormed) (hd : t.dictionary? i = some d) :
    TransitionMatrix.writeAll t.index d (TransitionMatrix.blankRow t.index) =
      TransitionMatrix.rowOf t.index d := by
  have hblank : (TransitionMatrix.blankRow t.index).length = t.index.events.length :=
    List.length_replicate
  apply List.ext_getElem?
  intro j
  rw [TransitionMatrix.writeAll, TransitionMatrix.rowOf, List.getElem?_map]
  rcases Nat.lt_or_ge j t.index.events.length with hj | hj
  · have hevent : t.index.events[j]? = some t.index.events[j] := List.getElem?_eq_getElem hj
    rw [TransitionMatrix.getElem?_foldl_write (hblank ▸ hj), h.findSome?_mark? hd hevent, hevent,
      Option.map_some, TransitionMatrix.blankRow, List.getElem?_replicate, if_pos hj]
    cases TransitionMatrix.cell? t.index d t.index.events[j] <;> rfl
  · rw [List.getElem?_eq_none hj, List.getElem?_eq_none]
    · rfl
    · rwa [TransitionMatrix.length_foldl_write, hblank]

/-- No state and no entry is passed over, and none is written over. -/
theorem written_eq (h : t.WellFormed) : TransitionMatrix.written t t.index = t.matrix := by
  have hindex : ∀ k row, t.rows[k]? = some row →
      t.index.stateIndex? row.1 = some (([] : List Row).length + k) := by
    rintro k ⟨state, d⟩ hrow
    rw [h.stateIndex?_eq, h.position?_eq_some_iff, List.length_nil, Nat.zero_add]
    exact state?_eq_some_iff.2 ⟨d, hrow⟩
  have hsize : t.index.states.length = t.rows.length := by
    rw [h.index_states, t.length_states, size]
  have hrows : t.rows.map (fun row => TransitionMatrix.writeAll t.index row.2
      (TransitionMatrix.blankRow t.index)) = t.matrix.rows := by
    rw [h.matrix_rows]
    apply List.map_congr_left
    rintro ⟨state, d⟩ hrow
    obtain ⟨i, hi⟩ := List.mem_iff_getElem?.1 hrow
    exact h.writeAll_blankRow (dictionary?_eq_some_iff.2 ⟨state, hi⟩)
  have hfold := TransitionMatrix.foldl_writeRow hindex (TransitionMatrix.blankRow t.index)
  rw [List.nil_append, List.nil_append, hrows] at hfold
  rw [TransitionMatrix.written, hsize, hfold]

end WellFormed

/-- The matrix of a built table is what writing every named entry into its cell gives.  A cell is set
exactly if an entry of its row is gated by its event, and to the position of that entry's target.
The entries of a row have different cells, so the row has as many set cells as the state has named
entries. -/
theorem matrix_holds_named {lines : List Line} (hbuild : build lines = .ok t) :
    t.matrix = .written t t.index ∧ t.matrix.size = t.index.states.length ∧
    (∀ row ∈ t.matrix.rows, row.length = t.index.events.length) ∧
    (∀ i j n, t.matrix.get? i j = some n ↔
      ∃ d named event, t.dictionary? i = some d ∧ named ∈ d.named ∧
        t.index.event? j = some event ∧ named.2.event = some event ∧
        t.state? n = some named.2.next) ∧
    ∀ i d, t.dictionary? i = some d →
      (∀ named ∈ d.named, ∃ j n, t.index.column? named.2 = some j ∧
        t.position? named.2.next = some n ∧ t.matrix.get? i j = some n) ∧
      (∀ named ∈ d.named, ∀ other ∈ d.named, named ≠ other →
        t.index.column? named.2 ≠ t.index.column? other.2) ∧
      ∃ row, t.matrix.row? i = some row ∧ row.setCells = d.named.length ∧
        (d.named = [] → ∀ cell ∈ row, cell = none) := by
  have h := wellFormed_of_build hbuild
  refine ⟨h.written_eq.symm, by simp [matrix, TransitionMatrix.ofTable, TransitionMatrix.size],
    ?_, fun i j n => h.get?_matrix_eq_some_iff_named, ?_⟩
  · intro row hrow
    rw [h.matrix_rows] at hrow
    obtain ⟨row, -, rfl⟩ := List.mem_map.1 hrow
    simp [TransitionMatrix.rowOf]
  · intro i d hd
    refine ⟨?_, ?_, ?_⟩
    · intro named hnamed
      obtain ⟨j, hj⟩ := h.exists_column? hd hnamed
      obtain ⟨event, hgate, hevent⟩ := column?_eq_some_iff.1 hj
      obtain ⟨n, hn, hcell⟩ := h.exists_cell?_of_named hd hnamed hgate
      exact ⟨j, n, hj, hn, (h.get?_matrix hd hevent).trans hcell⟩
    · intro named hnamed other hother hne hcolumn
      exact hne (h.eq_of_column?_eq hd hnamed hother hcolumn)
    · refine ⟨_, by rw [h.row?_matrix, hd, Option.map_some], h.setCells_rowOf hd, ?_⟩
      intro hempty cell hcell
      have hcount := h.setCells_rowOf hd
      rw [hempty, List.length_nil, Row.setCells, List.countP_eq_zero] at hcount
      simpa using hcount cell hcell

/-- Of two callables of one name, one leaves `A` beside another event and one leaves `B`. -/
theorem matrix_holds_named_of_go :
    ∃ t d e, build [⟨1, ⟨true, false⟩, .text "A", .text "B", some (.behavior ⟨0, "go"⟩)⟩,
        ⟨2, ⟨true, false⟩, .text "A", .text "C", some (.text "stop")⟩,
        ⟨3, ⟨true, false⟩, .text "B", .text "A", some (.behavior ⟨1, "go"⟩)⟩,
        ⟨4, ⟨true, false⟩, .text "C", .text "A", none⟩] = .ok t ∧
      t.dictionary? 0 = some d ∧ t.dictionary? 2 = some e ∧ d.named.length = 2 ∧ e.named = [] ∧
      t.matrix.get? 0 0 = some 1 ∧ t.matrix.get? 0 2 = none ∧
      (∃ row, t.matrix.row? 0 = some row ∧ row.setCells = 2) ∧
      ∃ row, t.matrix.row? 2 = some row ∧ ∀ cell ∈ row, cell = none := by
  refine ⟨_, _, _, rfl, rfl, rfl, rfl, rfl, ?_⟩
  obtain ⟨-, -, -, hcell, hrows⟩ := matrix_holds_named
    (show build [⟨1, ⟨true, false⟩, .text "A", .text "B", some (.behavior ⟨0, "go"⟩)⟩,
        ⟨2, ⟨true, false⟩, .text "A", .text "C", some (.text "stop")⟩,
        ⟨3, ⟨true, false⟩, .text "B", .text "A", some (.behavior ⟨1, "go"⟩)⟩,
        ⟨4, ⟨true, false⟩, .text "C", .text "A", none⟩] = .ok _ from rfl)
  obtain ⟨-, -, first, hfirst, hcount, -⟩ := hrows 0 _ rfl
  obtain ⟨-, -, last, hlast, -, habsent⟩ := hrows 2 _ rfl
  refine ⟨?_, by decide, ⟨first, hfirst, hcount⟩, last, hlast, habsent rfl⟩
  exact (hcell 0 0 1).2 ⟨_, ("go", .leadingTo (.text "B") (some (.behavior ⟨0, "go"⟩))),
    .behavior ⟨0, "go"⟩, rfl, .head _, by decide, rfl, rfl⟩

end Table

end StateDiagram
