import StateDiagram.Proofs.Packed.Cells
import StateDiagram.Proofs.Tabulation
import StateDiagram.Table.Build

/-!
# Packing and unpacking

What is unpacked is read from the buffer by the shape that the names of the legend give, so
packing with an index table of another shape is refused or misread.  A table and its own index
table always match, and then unpacking gives the packed matrix back.
-/

namespace StateDiagram

/-! ## Slices of a buffer of equal rows -/

section Slices

variable {α : Type} {width : Nat}

theorem length_flatten_of_uniform {rows : List (List α)} (h : ∀ row ∈ rows, row.length = width) :
    rows.flatten.length = rows.length * width := by
  induction rows with
  | nil => simp
  | cons row rows ih =>
      have hrest := ih fun other hother => h other (by simp [hother])
      rw [List.flatten_cons, List.length_append, h row (by simp), hrest, List.length_cons,
        Nat.succ_mul, Nat.add_comm]

theorem take_drop_flatten {rows : List (List α)} (h : ∀ row ∈ rows, row.length = width)
    {k : Nat} {row : List α} (hrow : rows[k]? = some row) :
    (rows.flatten.drop (k * width)).take width = row := by
  induction rows generalizing k with
  | nil => simp at hrow
  | cons first rows ih =>
      have hfirst : first.length = width := h first (by simp)
      cases k with
      | zero =>
          obtain rfl : first = row := by simpa using hrow
          rw [Nat.zero_mul, List.drop_zero, List.flatten_cons, ← hfirst, List.take_left]
      | succ k =>
          have hskip : (k + 1) * width = first.length + k * width := by
            rw [hfirst, Nat.succ_mul, Nat.add_comm]
          rw [hskip, List.flatten_cons, List.drop_append]
          simp only [Nat.le_add_right, List.drop_eq_nil_of_le, Nat.add_sub_cancel_left,
            List.nil_append]
          exact ih (fun other hother => h other (by simp [hother])) (by simpa using hrow)

theorem flatMap_take_drop {rows : Nat} {l : List α} (h : l.length = rows * width) :
    ((List.range rows).flatMap fun k => (l.drop (k * width)).take width) = l := by
  induction rows generalizing l with
  | zero => simpa [eq_comm] using h
  | succ rows ih =>
      have hrest : (l.drop width).length = rows * width := by
        rw [List.length_drop, h, Nat.succ_mul, Nat.add_sub_cancel]
      have hskip : ∀ k, l.drop ((k + 1) * width) = (l.drop width).drop (k * width) := by
        intro k
        rw [List.drop_drop, Nat.succ_mul, Nat.add_comm]
      rw [List.range_succ_eq_map, List.flatMap_cons, List.flatMap_map, Nat.zero_mul,
        List.drop_zero]
      simp only [Nat.succ_eq_add_one, hskip, ih hrest, List.take_append_drop]

end Slices

namespace TransitionMatrix

/-- The matrix has the shape that the index table gives it. -/
structure HasShape (m : TransitionMatrix) (index : Index) : Prop where
  size_eq : m.size = index.states.length
  width_eq : ∀ row ∈ m.rows, row.length = index.events.length

/-- The matrix has the shape of the index table, and names no state beyond it. -/
structure Matches (m : TransitionMatrix) (index : Index) : Prop extends m.HasShape index where
  cell_lt : ∀ row ∈ m.rows, ∀ {next}, some next ∈ row → next < index.states.length

/-- What the codes of the cells stand for. -/
def ofCodes (m : TransitionMatrix) : TransitionMatrix :=
  ⟨m.rows.map fun row => row.map fun cell =>
    PackedTable.cellOfCode (PackedTable.cellCode cell)⟩

theorem ofCodes_eq {m : TransitionMatrix}
    (h : ∀ row ∈ m.rows, ∀ cell ∈ row, PackedTable.Fits cell) : m.ofCodes = m := by
  have hrow : ∀ row ∈ m.rows,
      (row.map fun cell => PackedTable.cellOfCode (PackedTable.cellCode cell)) = row := by
    intro row hrow
    refine (List.map_congr_left fun cell hcell => ?_).trans (List.map_id row)
    exact PackedTable.cellOfCode_cellCode (h row hrow cell hcell)
  rw [ofCodes, List.map_congr_left hrow, List.map_id']

end TransitionMatrix

namespace PackedTable

variable {options : PackOptions} {tokens : NameTokens} {m : TransitionMatrix} {index : Index}
  {p : PackedTable}

theorem pack_eq_ok_iff : pack options tokens m index = .ok p ↔
    options.layout = .fixedWidth ∧ (∀ row ∈ m.rows, ∀ cell ∈ row, Passes cell) ∧
      p = ⟨m.storedRows.flatten.map cellCode, legendOf options tokens m index⟩ := by
  have hcells : (∀ cell ∈ m.storedRows.flatten, Passes cell) ↔
      ∀ row ∈ m.rows, ∀ cell ∈ row, Passes cell := by
    simp only [List.mem_flatten, m.mem_storedRows]
    exact ⟨fun h row hrow cell hcell => h cell ⟨row, hrow, hcell⟩,
      fun h cell ⟨row, hrow, hcell⟩ => h row hrow cell hcell⟩
  cases hlayout : options.layout with
  | strided => simp [pack, hlayout]
  | fixedWidth =>
      simp only [pack, hlayout, true_and, ← hcells, map_eq_ok_iff, packCells_eq_ok_iff]
      constructor
      · rintro ⟨_, ⟨hpasses, rfl⟩, rfl⟩
        exact ⟨hpasses, rfl⟩
      · rintro ⟨hpasses, rfl⟩
        exact ⟨_, ⟨hpasses, rfl⟩, rfl⟩

theorem unpack_eq_ok_iff : p.unpack = .ok m ↔
    p.legend.layout = .fixedWidth ∧
      p.buffer.length = p.legend.stateNames.length * p.legend.eventNames.length ∧
      rowOrderFault? p.legend.rowPositions p.legend.stateNames.length = none ∧
      (∀ position ∈ p.legend.rowPositions, ∀ code ∈ p.storedCodes position,
        code.toNat ≤ p.legend.stateNames.length) ∧
      m.rows = p.legend.rowPositions.map fun position =>
        (p.storedCodes position).map cellOfCode := by
  have hrows : ∀ {rows}, p.unpackRows = .ok rows ↔ _ :=
    mapM_eq_ok_iff fun _ _ => unpackRow_eq_ok_iff
  unfold unpack
  cases hlayout : p.legend.layout with
  | strided => simp
  | fixedWidth =>
      by_cases hshape :
          p.buffer.length = p.legend.stateNames.length * p.legend.eventNames.length
      · cases hfault : rowOrderFault? p.legend.rowPositions p.legend.stateNames.length with
        | some fault => simp [hshape, hfault]
        | none =>
            obtain ⟨rows⟩ := m
            simp only [reduceCtorEq, if_false, hshape, ne_eq, not_true_eq_false, true_and, hfault,
              map_eq_ok_iff, hrows, TransitionMatrix.mk.injEq]
            constructor
            · rintro ⟨_, hread, rfl⟩
              exact hread
            · exact fun hread => ⟨rows, hread, rfl⟩
      · simp [hshape]

theorem storedCodes_of_pack (hm : m.HasShape index) (hpack : pack options tokens m index = .ok p)
    {number position : Nat} {row : Row} (hrow : m.rows[number]? = some row)
    (hposition : m.rowPositions[number]? = some position) :
    p.storedCodes position = row.map cellCode := by
  obtain ⟨-, -, rfl⟩ := pack_eq_ok_iff.1 hpack
  have hwidth : ∀ stored ∈ m.storedRows, stored.length = index.events.length :=
    fun stored h => hm.width_eq stored (m.mem_storedRows.1 h)
  have hstored : m.storedRows[position]? = some row :=
    (m.storedRows_of_rowPositions hposition).trans hrow
  simp only [storedCodes, legendOf, PackOptions.names, List.length_map, List.length_zipIdx,
    ← List.map_drop, ← List.map_take]
  rw [take_drop_flatten hwidth hstored]

theorem storedCodes_rowPositions_of_pack (hm : m.HasShape index)
    (hpack : pack options tokens m index = .ok p) :
    m.rowPositions.map p.storedCodes = m.rows.map (List.map cellCode) := by
  apply List.ext_getElem?
  intro number
  rw [List.getElem?_map, List.getElem?_map]
  cases hrow : m.rows[number]? with
  | none =>
      have hlen : m.rowPositions.length ≤ number := by
        rw [m.length_rowPositions]
        exact List.getElem?_eq_none_iff.1 hrow
      rw [List.getElem?_eq_none hlen, Option.map_none, Option.map_none]
  | some row =>
      have hlt : number < m.rowPositions.length := by
        obtain ⟨h, -⟩ := List.getElem?_eq_some_iff.1 hrow
        rwa [m.length_rowPositions]
      have hposition := List.getElem?_eq_getElem hlt
      rw [hposition, Option.map_some, storedCodes_of_pack hm hpack hrow hposition, Option.map_some]

/-- A packed matrix of the right shape is read back from its codes, provided these name states. -/
theorem unpack_of_pack_eq_ok_iff (hm : m.HasShape index)
    (hpack : pack options tokens m index = .ok p) {other : TransitionMatrix} :
    p.unpack = .ok other ↔
      (∀ row ∈ m.rows, ∀ cell ∈ row, (cellCode cell).toNat ≤ index.states.length) ∧
        other = m.ofCodes := by
  obtain ⟨hfixed, -, hp⟩ := pack_eq_ok_iff.1 hpack
  have hlayout : p.legend.layout = .fixedWidth := by simp [hp, legendOf, hfixed]
  have hstates : p.legend.stateNames.length = m.size := by
    simp [hp, legendOf, PackOptions.names, hm.size_eq]
  have hevents : p.legend.eventNames.length = index.events.length := by
    simp [hp, legendOf, PackOptions.names]
  have hpositions : p.legend.rowPositions = m.rowPositions := by simp [hp, legendOf]
  have hlength : p.buffer.length = m.size * index.events.length := by
    have hwidth : ∀ stored ∈ m.storedRows, stored.length = index.events.length :=
      fun stored h => hm.width_eq stored (m.mem_storedRows.1 h)
    rw [hp, List.length_map, length_flatten_of_uniform hwidth, m.length_storedRows]
  have hstored := storedCodes_rowPositions_of_pack hm hpack
  have hcodes : (∀ position ∈ m.rowPositions, ∀ code ∈ p.storedCodes position,
      code.toNat ≤ m.size) ↔
      ∀ row ∈ m.rows, ∀ cell ∈ row, (cellCode cell).toNat ≤ m.size := by
    have hlists : (∀ codes ∈ m.rowPositions.map p.storedCodes, ∀ code ∈ codes,
        code.toNat ≤ m.size) ↔
        ∀ codes ∈ m.rows.map (List.map cellCode), ∀ code ∈ codes, code.toNat ≤ m.size := by
      rw [hstored]
    simpa only [List.forall_mem_map] using hlists
  have hrows : (m.rowPositions.map fun position => (p.storedCodes position).map cellOfCode) =
      m.ofCodes.rows := by
    have hread := congrArg (List.map (List.map cellOfCode)) hstored
    simpa only [List.map_map, Function.comp_def, TransitionMatrix.ofCodes] using hread
  rw [unpack_eq_ok_iff, hstates, hevents, hpositions, hcodes, hrows, ← hm.size_eq]
  obtain ⟨rows⟩ := other
  simp only [hlayout, hlength, rowOrderFault?_rowPositions m, true_and, TransitionMatrix.ofCodes,
    TransitionMatrix.mk.injEq]

/-- A matrix that matches the index table comes back out of what was packed, cell for cell. -/
theorem unpack_of_pack (hm : m.Matches index) (hfits : ∀ row ∈ m.rows, ∀ cell ∈ row, Fits cell)
    (hpack : pack options tokens m index = .ok p) : p.unpack = .ok m := by
  refine (unpack_of_pack_eq_ok_iff hm.toHasShape hpack).2 ⟨?_, (m.ofCodes_eq hfits).symm⟩
  intro row hrow cell hcell
  cases cell with
  | none => simp [cellCode]
  | some next =>
      rw [toNat_cellCode_some (hfits row hrow _ hcell next rfl)]
      exact hm.cell_lt row hrow hcell

end PackedTable

/-! ## Tables -/

namespace Table

variable {options : PackOptions}

theorem matrix_matches (t : Table) : t.matrix.Matches t.index where
  size_eq := by simp [matrix, TransitionMatrix.ofTable, TransitionMatrix.size]
  width_eq := by
    intro row hrow
    obtain ⟨state, -, rfl⟩ := List.mem_map.1 hrow
    simp [TransitionMatrix.rowOf]
  cell_lt := by
    intro row hrow next hnext
    obtain ⟨state, -, rfl⟩ := List.mem_map.1 hrow
    obtain ⟨event, -, hcell⟩ := List.mem_map.1 hnext
    obtain ⟨found, -, hindex⟩ := Option.bind_eq_some_iff.1 hcell
    obtain ⟨hlt, -⟩ := List.idxOf?_eq_some_iff.1 hindex
    exact hlt

theorem length_index_states_le (t : Table) : t.index.states.length ≤ t.size := by
  have hsub : t.index.states ⊆ t.states := fun _ h => List.mem_eraseDups.1 h
  have hle := List.Nodup.length_le_of_subset (Assoc.nodup_eraseDups t.states) hsub
  rwa [t.length_states] at hle

theorem lt_size_of_mem_matrix (t : Table) {row : Row} (hrow : row ∈ t.matrix.rows) {next : Nat}
    (hnext : some next ∈ row) : next < t.size :=
  Nat.lt_of_lt_of_le (t.matrix_matches.cell_lt row hrow hnext) t.length_index_states_le

theorem pack_eq_ok {t : Table} (hsize : t.size < UInt32.size)
    (hlayout : options.layout = .fixedWidth) (tokens : NameTokens) :
    t.pack options tokens = .ok ⟨t.matrix.storedRows.flatten.map PackedTable.cellCode,
      PackedTable.legendOf options tokens t.matrix t.index⟩ := by
  have hfits : ∀ row ∈ t.matrix.rows, ∀ cell ∈ row, PackedTable.Fits cell := by
    rintro row hrow cell hcell next rfl
    have hlt := t.lt_size_of_mem_matrix hrow hcell
    omega
  exact PackedTable.pack_eq_ok_iff.2 ⟨hlayout, fun row hrow cell hcell =>
    (hfits row hrow cell hcell).passes, rfl⟩

/-- The states of a table are numbered by words, so none has the number that comes round. -/
theorem unpack_of_pack {t : Table} (hsize : t.size < UInt64.size) {tokens : NameTokens}
    {p : PackedTable} (h : t.pack options tokens = .ok p) : p.unpack = .ok t.matrix := by
  obtain ⟨-, hpasses, -⟩ := PackedTable.pack_eq_ok_iff.1 h
  refine PackedTable.unpack_of_pack t.matrix_matches (fun row hrow cell hcell => ?_) h
  refine (hpasses row hrow cell hcell).fits ?_
  rintro next rfl
  have hlt := t.lt_size_of_mem_matrix hrow hcell
  omega

/-- Every table whose states fit into the codes is packed, and its matrix comes back out. -/
theorem unpack_pack {t : Table} (hsize : t.size < UInt32.size)
    (hlayout : options.layout = .fixedWidth) (tokens : NameTokens) :
    ∃ p, t.pack options tokens = .ok p ∧ p.unpack = .ok t.matrix := by
  have hpack := pack_eq_ok hsize hlayout tokens
  have hwords : UInt32.size < UInt64.size := by decide
  exact ⟨_, hpack, unpack_of_pack (Nat.lt_trans hsize hwords) hpack⟩

/-- Two callables of one name lead to each other, and one of them into a state without a name. -/
theorem unpack_pack_of_twins :
    ∃ t, build [⟨1, ⟨true, true⟩, .behavior ⟨0, "twin"⟩, .behavior ⟨1, "twin"⟩,
        some (.text "go")⟩, ⟨2, ⟨true, false⟩, .behavior ⟨1, "twin"⟩, .behavior ⟨2, ""⟩,
        some (.text "stop")⟩] = .ok t ∧
      t.size < UInt32.size ∧ PackOptions.standard.layout = .fixedWidth ∧
      ∃ p, t.pack .standard (fun _ _ => "abcdefgh") = .ok p ∧ p.unpack = .ok t.matrix :=
  ⟨_, rfl, by decide, rfl, unpack_pack (by decide) rfl _⟩

end Table

end StateDiagram
