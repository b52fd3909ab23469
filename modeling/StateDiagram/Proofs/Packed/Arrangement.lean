import StateDiagram.Proofs.Packed.Cells

/-!
# How a matrix is stored

Any matrix can be packed, also one whose rows have different lengths and whose cells name no
states.  The rows are stored by their numbers of set cells, rows with equally many keep their order,
and packing fails only at a cell that has no code.  The largest word passes as an absent cell.
-/

namespace StateDiagram

/-! ## A stable order of the rows -/

/-- Sorting a list with its numbers by a key leaves elements of one key in their order. -/
theorem pairwise_mergeSort_zipIdx {α : Type} (key : α → Nat) (l : List α) :
    (l.zipIdx.mergeSort fun a b => key a.1 ≤ key b.1).Pairwise fun a b =>
      key a.1 ≤ key b.1 ∧ (key a.1 = key b.1 → a.2 ≤ b.2) := by
  let le : α × Nat → α × Nat → Bool := fun a b => key a.1 ≤ key b.1
  have htrans : ∀ a b c, le a b → le b c → le a c := by
    simp only [le, decide_eq_true_eq]
    omega
  have htotal : ∀ a b, le a b || le b a := by
    simp only [le, Bool.or_eq_true, decide_eq_true_eq]
    omega
  -- Numbered once more, the list can be sorted with ties broken by the number to the same effect.
  have hsorted := List.pairwise_mergeSort (List.zipIdxLE_trans htrans) (List.zipIdxLE_total htotal)
    l.zipIdx.zipIdx
  have hnumber : ∀ a ∈ l.zipIdx.zipIdx, a.1.2 = a.2 := by
    rintro ⟨a, i⟩ ha
    have hi := List.mem_zipIdx_iff_getElem?.1 ha
    rw [List.getElem?_zipIdx] at hi
    obtain ⟨b, -, hnumbered⟩ := Option.map_eq_some_iff.1 hi
    exact (congrArg Prod.snd hnumbered).symm.trans (Nat.zero_add i)
  have hties : l.zipIdx.mergeSort le = _ := List.mergeSort_zipIdx.symm
  rw [hties, List.pairwise_map]
  refine hsorted.imp_of_mem ?_
  intro a b ha hb hab
  rw [hnumber a (List.mem_mergeSort.1 ha), hnumber b (List.mem_mergeSort.1 hb)]
  simp only [List.zipIdxLE, le, decide_eq_true_eq] at hab
  split at hab <;> grind

namespace TransitionMatrix

def rowAt (m : TransitionMatrix) (number : Nat) : Row := (m.row? number).getD []

/-- An order of the row numbers in which fewer set cells come first, and rows with equally many
stand as in the matrix. -/
structure StableOrder (m : TransitionMatrix) (order : List Nat) : Prop where
  perm : order.Perm (List.range m.size)
  ascending : order.Pairwise fun a b => (m.rowAt a).setCells ≤ (m.rowAt b).setCells
  stable : order.Pairwise fun a b => (m.rowAt a).setCells = (m.rowAt b).setCells → a < b

variable (m : TransitionMatrix)

theorem rowAt_of_mem_sortedRows {stored : Row × Nat} (h : stored ∈ m.sortedRows) :
    m.rowAt stored.2 = stored.1 := by
  have hrow := List.mem_zipIdx_iff_getElem?.1 (m.sortedRows_perm.mem_iff.1 h)
  rw [rowAt, row?, hrow, Option.getD_some]

theorem storedRows_eq : m.storedRows = m.storedOrder.map m.rowAt := by
  have hrows : m.storedRows = m.sortedRows.map Prod.fst := rfl
  have horder : m.storedOrder = m.sortedRows.map Prod.snd := rfl
  rw [hrows, horder, List.map_map]
  exact List.map_congr_left fun stored h => (m.rowAt_of_mem_sortedRows h).symm

theorem storedOrder_nodup : m.storedOrder.Nodup :=
  m.storedOrder_perm.nodup_iff.2 List.nodup_range

theorem stableOrder_storedOrder : m.StableOrder m.storedOrder := by
  have hsorted : m.sortedRows.Pairwise _ := pairwise_mergeSort_zipIdx Row.setCells m.rows
  have horder : m.storedOrder.Pairwise fun a b =>
      (m.rowAt a).setCells ≤ (m.rowAt b).setCells ∧
        ((m.rowAt a).setCells = (m.rowAt b).setCells → a ≤ b) := by
    refine List.pairwise_map.2 (hsorted.imp_of_mem ?_)
    intro a b ha hb hab
    rwa [m.rowAt_of_mem_sortedRows ha, m.rowAt_of_mem_sortedRows hb]
  refine ⟨m.storedOrder_perm, horder.imp And.left, ?_⟩
  refine (horder.and m.storedOrder_nodup).imp ?_
  rintro a b ⟨⟨-, htie⟩, hne⟩ hcount
  exact Nat.lt_of_le_of_ne (htie hcount) hne

/-- Number of set cells and place in the matrix decide between any two rows. -/
theorem StableOrder.unique {m : TransitionMatrix} {order other : List Nat}
    (h : m.StableOrder order) (hother : m.StableOrder other) : order = other := by
  have hsorted : ∀ {order}, m.StableOrder order → order.Pairwise fun a b =>
      (m.rowAt a).setCells ≤ (m.rowAt b).setCells ∧
        ((m.rowAt a).setCells = (m.rowAt b).setCells → a < b) :=
    fun h => h.ascending.and h.stable
  refine List.Perm.eq_of_pairwise ?_ (hsorted h) (hsorted hother) (h.perm.trans hother.perm.symm)
  rintro a b - - ⟨hle, hlt⟩ ⟨hge, hgt⟩
  have hcount := Nat.le_antisymm hle hge
  exact absurd (hlt hcount) (Nat.lt_asymm (hgt hcount.symm))

theorem rowPositions_perm : m.rowPositions.Perm (List.range m.size) :=
  PackedTable.perm_range_iff.2
    ⟨m.length_rowPositions, m.rowPositions_nodup, fun _ h => m.rowPositions_lt h⟩

theorem rowPositions_eq_some_iff {number position : Nat} :
    m.rowPositions[number]? = some position ↔ m.storedOrder[position]? = some number := by
  refine ⟨m.storedOrder_of_rowPositions, fun h => ?_⟩
  have hlt : number < m.rowPositions.length := by
    rw [m.length_rowPositions, ← m.mem_storedOrder]
    exact List.mem_of_getElem? h
  have hposition := List.getElem?_eq_getElem hlt
  have hback := m.storedOrder_of_rowPositions hposition
  have hbelow := (List.getElem?_eq_some_iff.1 hback).1
  rw [hposition, (List.getElem?_inj hbelow m.storedOrder_nodup).1 (hback.trans h.symm)]

end TransitionMatrix

namespace PackedTable

/-! ## The stored cells -/

/-- What a cell is stored as: the number of the next state plus one, or zero. -/
def cellNumber : Option Nat → Nat
  | none => 0
  | some next => next + 1

theorem toNat_cellCode {cell : Option Nat} (h : Fits cell) :
    (cellCode cell).toNat = cellNumber cell := by
  cases cell with
  | none => rfl
  | some next => exact toNat_cellCode_some (h next rfl)

theorem fits_some_iff {next : Nat} : Fits (some next) ↔ next < UInt32.size - 1 := by
  simp only [Fits, Option.some.injEq, forall_eq']
  omega

theorem isOk_packCell {cell : Option Nat} : (packCell cell).isOk = true ↔ Passes cell :=
  isOk_iff_of_eq_ok_iff (packCell_eq_ok_iff cell)

theorem packCell_eq_error_iff {cell : Option Nat} {e : PackError} :
    packCell cell = .error e ↔
      ∃ next, cell = some next ∧ UInt32.size ≤ storedNumber next ∧ e = .overflow next := by
  cases cell with
  | none => simp [packCell]
  | some next =>
      by_cases h : storedNumber next < UInt32.size
      · simp only [packCell, if_pos h, Option.some.injEq, exists_eq_left', Nat.not_le.2 h,
          false_and, reduceCtorEq]
      · simp only [packCell, if_neg h, Option.some.injEq, exists_eq_left', Nat.not_lt.1 h,
          true_and, Except.error.injEq, eq_comm]

theorem packCells_eq_error_iff {cells : List (Option Nat)} {e : PackError} :
    packCells cells = .error e ↔
      ∃ k next : Nat, cells[k]? = some (some next) ∧ UInt32.size ≤ storedNumber next ∧
        e = .overflow next ∧
        ∀ j < k, ∀ n, cells[j]? = some (some n) → storedNumber n < UInt32.size := by
  simp only [packCells, mapM_eq_error_iff, isOk_packCell, packCell_eq_error_iff]
  constructor
  · rintro ⟨k, _, hcell, ⟨next, rfl, hlarge, rfl⟩, hbefore⟩
    exact ⟨k, next, hcell, hlarge, rfl, fun j hj n hn => hbefore j hj _ hn n rfl⟩
  · rintro ⟨k, next, hcell, hlarge, rfl, hbefore⟩
    refine ⟨k, some next, hcell, ⟨next, rfl, hlarge, rfl⟩, ?_⟩
    rintro j hj _ hn n rfl
    exact hbefore j hj n hn

/-- Without the largest word, the cells that are refused are those that have no code. -/
theorem packCells_eq_error_iff_of_lt {cells : List (Option Nat)}
    (hwords : ∀ next, some next ∈ cells → next < UInt64.size - 1) {e : PackError} :
    packCells cells = .error e ↔
      ∃ k next : Nat, cells[k]? = some (some next) ∧ UInt32.size - 1 ≤ next ∧
        e = .overflow next ∧ ∀ j < k, ∀ n, cells[j]? = some (some n) → n < UInt32.size - 1 := by
  have hnumber : ∀ {k n : Nat}, cells[k]? = some (some n) → storedNumber n = n + 1 :=
    fun hcell => storedNumber_of_lt (hwords _ (List.mem_of_getElem? hcell))
  rw [packCells_eq_error_iff]
  refine exists_congr fun k => exists_congr fun next => and_congr_right fun hcell => ?_
  refine and_congr (by rw [hnumber hcell]; omega) (and_congr_right fun _ => ?_)
  refine forall₄_congr fun j _ n hn => ?_
  rw [hnumber hn]
  omega

theorem exists_packCells_eq_error_iff {cells : List (Option Nat)}
    (hwords : ∀ next, some next ∈ cells → next < UInt64.size - 1) :
    (∃ e, packCells cells = .error e) ↔ ∃ next, some next ∈ cells ∧ UInt32.size - 1 ≤ next := by
  constructor
  · rintro ⟨e, he⟩
    obtain ⟨k, next, hcell, hlarge, -, -⟩ := (packCells_eq_error_iff_of_lt hwords).1 he
    exact ⟨next, List.mem_of_getElem? hcell, hlarge⟩
  · rintro ⟨next, hnext, hlarge⟩
    cases hpacked : packCells cells with
    | error e => exact ⟨e, rfl⟩
    | ok buffer =>
        have hpasses := (packCells_eq_ok_iff.1 hpacked).1 _ hnext
        have hlt := fits_some_iff.1 (hpasses.fits fun n hn => hwords n (hn ▸ hnext))
        omega

theorem mem_flatMap_rowAt {m : TransitionMatrix} {order : List Nat} (h : m.StableOrder order)
    {cell : Option Nat} : cell ∈ order.flatMap m.rowAt ↔ ∃ row ∈ m.rows, cell ∈ row := by
  simp only [List.mem_flatMap, h.perm.mem_iff, List.mem_range]
  constructor
  · rintro ⟨number, hlt, hcell⟩
    have hrow : m.rows[number]? = some m.rows[number] := List.getElem?_eq_getElem hlt
    rw [TransitionMatrix.rowAt, TransitionMatrix.row?, hrow, Option.getD_some] at hcell
    exact ⟨_, List.mem_of_getElem? hrow, hcell⟩
  · rintro ⟨row, hrow, hcell⟩
    obtain ⟨number, hnumber⟩ := List.mem_iff_getElem?.1 hrow
    refine ⟨number, (List.getElem?_eq_some_iff.1 hnumber).1, ?_⟩
    rwa [TransitionMatrix.rowAt, TransitionMatrix.row?, hnumber, Option.getD_some]

/-- Packing stores the rows of any matrix in a stable order by their numbers of set cells.  Without
a cell of the largest word, every cell is stored one higher than the state that it names, and
packing fails exactly where some set cell has no code.  It reports the first such cell in the order
in which the cells are stored. -/
theorem pack_stores_rows (tokenLength : Nat) (tokens : NameTokens) (m : TransitionMatrix)
    (index : Index) :
    ∃ order, m.StableOrder order ∧
      let cells := order.flatMap m.rowAt
      let packed := pack ⟨.fixedWidth, tokenLength⟩ tokens m index
      (∀ p, packed = .ok p →
        p.legend.rowPositions.Perm (List.range m.size) ∧
        ∀ number position : Nat, p.legend.rowPositions[number]? = some position ↔
          order[position]? = some number) ∧
      ((∀ row ∈ m.rows, ∀ next, some next ∈ row → next < UInt64.size - 1) →
        ((∃ e, packed = .error e) ↔
          ∃ row ∈ m.rows, ∃ next, some next ∈ row ∧ UInt32.size - 1 ≤ next) ∧
        (∀ e, packed = .error e ↔
          ∃ k next : Nat, cells[k]? = some (some next) ∧ UInt32.size - 1 ≤ next ∧
            e = .overflow next ∧
            ∀ j < k, ∀ n, cells[j]? = some (some n) → n < UInt32.size - 1) ∧
        ∀ p, packed = .ok p → p.buffer.map UInt32.toNat = cells.map cellNumber) := by
  have horder := m.stableOrder_storedOrder
  refine ⟨m.storedOrder, horder, ?_⟩
  intro cells packed
  have hpacked : packed = (packCells cells).map fun buffer =>
      ⟨buffer, legendOf ⟨.fixedWidth, tokenLength⟩ tokens m index⟩ := by
    simp only [packed, pack, m.storedRows_eq, cells, List.flatMap]
  have herror : ∀ e, packed = .error e ↔ packCells cells = .error e := by
    intro e
    rw [hpacked, map_eq_error_iff]
  have hok : ∀ {p}, packed = .ok p → packCells cells = .ok p.buffer ∧
      p.legend.rowPositions = m.rowPositions := by
    intro p hp
    rw [hpacked] at hp
    obtain ⟨buffer, hbuffer, rfl⟩ := map_eq_ok_iff.1 hp
    exact ⟨hbuffer, rfl⟩
  refine ⟨?_, fun hwords => ?_⟩
  · intro p hp
    rw [(hok hp).2]
    exact ⟨m.rowPositions_perm, fun _ _ => m.rowPositions_eq_some_iff⟩
  have hmem : ∀ {cell}, cell ∈ cells ↔ ∃ row ∈ m.rows, cell ∈ row := mem_flatMap_rowAt horder
  have hcells : ∀ next, some next ∈ cells → next < UInt64.size - 1 := by
    intro next hnext
    obtain ⟨row, hrow, hcell⟩ := hmem.1 hnext
    exact hwords row hrow next hcell
  refine ⟨?_, fun e => (herror e).trans (packCells_eq_error_iff_of_lt hcells), ?_⟩
  · simp only [herror, exists_packCells_eq_error_iff hcells, hmem]
    constructor
    · rintro ⟨next, ⟨row, hrow, hnext⟩, hlarge⟩
      exact ⟨row, hrow, next, hnext, hlarge⟩
    · rintro ⟨row, hrow, next, hnext, hlarge⟩
      exact ⟨next, ⟨row, hrow, hnext⟩, hlarge⟩
  · intro p hp
    obtain ⟨hpasses, hbuffer⟩ := packCells_eq_ok_iff.1 (hok hp).1
    rw [hbuffer, List.map_map]
    refine List.map_congr_left fun cell hcell => toNat_cellCode ?_
    exact (hpasses cell hcell).fits fun next hnext => hcells next (hnext ▸ hcell)

end PackedTable

end StateDiagram
