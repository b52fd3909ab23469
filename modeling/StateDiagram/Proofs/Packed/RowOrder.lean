import Mathlib.Data.List.Nodup
import Mathlib.Data.List.Perm.Subperm
import StateDiagram.Packed.Pack
import StateDiagram.Packed.Unpack

/-!
# The order of the stored rows

Packing stores every row once, and the row positions of the legend lead back from each row of the
matrix to where it is stored.
-/

namespace StateDiagram

namespace TransitionMatrix

variable (m : TransitionMatrix)

/-- The rows with their numbers, in the order in which they are stored. -/
def sortedRows : List (Row × Nat) :=
  m.rows.zipIdx.mergeSort fun a b => a.1.setCells ≤ b.1.setCells

theorem sortedRows_perm : m.sortedRows.Perm m.rows.zipIdx := List.mergeSort_perm _ _

theorem storedOrder_perm : m.storedOrder.Perm (List.range m.size) := by
  have h := m.sortedRows_perm.map Prod.snd
  rwa [List.zipIdx_map_snd, ← List.range_eq_range'] at h

theorem mem_storedOrder {row : Nat} : row ∈ m.storedOrder ↔ row < m.size := by
  rw [m.storedOrder_perm.mem_iff, List.mem_range]

theorem length_storedOrder : m.storedOrder.length = m.size := by
  rw [m.storedOrder_perm.length_eq, List.length_range]

theorem length_storedRows : m.storedRows.length = m.size := by
  rw [storedRows, List.length_map, List.length_mergeSort, List.length_zipIdx, size]

theorem mem_storedRows {row : Row} : row ∈ m.storedRows ↔ row ∈ m.rows := by
  have h := m.sortedRows_perm.map Prod.fst
  rw [List.zipIdx_map_fst] at h
  exact h.mem_iff

theorem storedRows_getElem?_eq {position row : Nat} (h : m.storedOrder[position]? = some row) :
    m.storedRows[position]? = m.rows[row]? := by
  rw [storedOrder, List.getElem?_map, Option.map_eq_some_iff] at h
  obtain ⟨⟨stored, number⟩, hsorted, rfl⟩ := h
  have hmem : (stored, number) ∈ m.rows.zipIdx :=
    m.sortedRows_perm.mem_iff.1 (List.mem_of_getElem? hsorted)
  rw [storedRows, List.getElem?_map, hsorted, List.mem_zipIdx_iff_getElem?.1 hmem]
  rfl

theorem length_rowPositions : m.rowPositions.length = m.size := by simp [rowPositions]

theorem storedOrder_of_rowPositions {row position : Nat}
    (h : m.rowPositions[row]? = some position) : m.storedOrder[position]? = some row := by
  rw [rowPositions, List.getElem?_map, Option.map_eq_some_iff] at h
  obtain ⟨number, hnumber, rfl⟩ := h
  obtain ⟨hlt, rfl⟩ := List.getElem?_eq_some_iff.1 hnumber
  simp only [List.length_range] at hlt
  rw [List.getElem_range]
  have hmem : row ∈ m.storedOrder := m.mem_storedOrder.2 hlt
  exact List.getElem?_idxOf hmem

theorem storedRows_of_rowPositions {row position : Nat}
    (h : m.rowPositions[row]? = some position) : m.storedRows[position]? = m.rows[row]? :=
  m.storedRows_getElem?_eq (m.storedOrder_of_rowPositions h)

theorem rowPositions_lt {position : Nat} (h : position ∈ m.rowPositions) : position < m.size := by
  obtain ⟨row, hrow⟩ := List.mem_iff_getElem?.1 h
  obtain ⟨hlt, -⟩ := List.getElem?_eq_some_iff.1 (m.storedOrder_of_rowPositions hrow)
  rwa [length_storedOrder] at hlt

theorem rowPositions_nodup : m.rowPositions.Nodup := by
  rw [List.nodup_iff_getElem?_ne_getElem?]
  intro i j hij hj heq
  have hi : i < m.rowPositions.length := Nat.lt_trans hij hj
  have hsecond : m.rowPositions[j]? = some m.rowPositions[j] := List.getElem?_eq_getElem hj
  have hone := m.storedOrder_of_rowPositions (heq.trans hsecond)
  have htwo := m.storedOrder_of_rowPositions hsecond
  rw [hone, Option.some.injEq] at htwo
  omega

end TransitionMatrix

namespace PackedTable

/-! ## What passes the check of the row order -/

theorem firstFault?_eq_none_iff {rows : Nat} {seen positions : List Nat} :
    firstFault? rows seen positions = none ↔
      positions.Nodup ∧ ∀ position ∈ positions, position < rows ∧ position ∉ seen := by
  induction positions generalizing seen with
  | nil => simp [firstFault?]
  | cons position positions ih =>
      by_cases hlt : rows ≤ position
      · simp only [firstFault?, hlt, if_true, reduceCtorEq, false_iff]
        rintro ⟨-, hbelow⟩
        have hfirst := (hbelow position (by simp)).1
        omega
      · by_cases hseen : position ∈ seen
        · simp [firstFault?, hlt, hseen]
        · simp only [firstFault?, hlt, hseen, if_false, ih, List.nodup_cons, List.mem_cons,
            forall_eq_or_imp, not_or]
          constructor
          · rintro ⟨hnodup, hrest⟩
            refine ⟨⟨fun hmem => (hrest position hmem).2.1 rfl, hnodup⟩, ⟨by omega, not_false⟩, ?_⟩
            exact fun other hmem => ⟨(hrest other hmem).1, (hrest other hmem).2.2⟩
          · rintro ⟨⟨hmem, hnodup⟩, -, hrest⟩
            refine ⟨hnodup, fun other hother => ?_⟩
            obtain ⟨hbelow, hseen⟩ := hrest other hother
            refine ⟨hbelow, ?_, hseen⟩
            rintro rfl
            exact hmem hother

/-- The check passes exactly the lists that hold every position below `rows` once. -/
theorem rowOrderFault?_eq_none_iff {positions : List Nat} {rows : Nat} :
    rowOrderFault? positions rows = none ↔
      positions.length = rows ∧ positions.Nodup ∧ ∀ position ∈ positions, position < rows := by
  by_cases h : positions.length = rows
  · simp [rowOrderFault?, h, firstFault?_eq_none_iff]
  · simp [rowOrderFault?, h]

theorem perm_range_iff {positions : List Nat} {rows : Nat} :
    positions.Perm (List.range rows) ↔
      positions.length = rows ∧ positions.Nodup ∧ ∀ position ∈ positions, position < rows := by
  constructor
  · intro h
    refine ⟨?_, h.nodup_iff.2 List.nodup_range, fun position hmem => ?_⟩
    · rw [h.length_eq, List.length_range]
    · exact List.mem_range.1 (h.mem_iff.1 hmem)
  · rintro ⟨hlength, hnodup, hlt⟩
    have hsub : positions ⊆ List.range rows := fun position h => List.mem_range.2 (hlt position h)
    exact (List.Nodup.subperm hnodup hsub).perm_of_length_le
      (Nat.le_of_eq (List.length_range.trans hlength.symm))

theorem rowOrderFault?_eq_none_iff_perm {positions : List Nat} {rows : Nat} :
    rowOrderFault? positions rows = none ↔ positions.Perm (List.range rows) := by
  rw [rowOrderFault?_eq_none_iff, perm_range_iff]

theorem rowOrderFault?_rowPositions (m : TransitionMatrix) :
    rowOrderFault? m.rowPositions m.size = none :=
  rowOrderFault?_eq_none_iff.2
    ⟨m.length_rowPositions, m.rowPositions_nodup, fun _ h => m.rowPositions_lt h⟩

end PackedTable

end StateDiagram
