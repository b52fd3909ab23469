import StateDiagram.Proofs.Packed.RowOrder
import StateDiagram.Proofs.Traversal

/-!
# Cells of a packed table

Packing and unpacking a list of cells each succeed under one condition on every cell, and then act
on it cell by cell.
-/

namespace StateDiagram

namespace PackedTable

/-! ## One cell -/

theorem storedNumber_of_lt {next : Nat} (h : next < UInt64.size - 1) :
    storedNumber next = next + 1 :=
  Nat.mod_eq_of_lt (by omega)

/-- A set cell is stored one higher than the state it names, so that zero is left for an absent
one. -/
def cellCode : Option Nat → UInt32
  | none => 0
  | some next => UInt32.ofNat (storedNumber next)

def cellOfCode (code : UInt32) : Option Nat :=
  if code = 0 then none else some (code.toNat - 1)

/-- The cells that are taken for ones with a code. -/
def Passes (cell : Option Nat) : Prop :=
  ∀ next, cell = some next → storedNumber next < UInt32.size

/-- The cells that have a code of their own. -/
def Fits (cell : Option Nat) : Prop := ∀ next, cell = some next → next + 1 < UInt32.size

theorem storedNumber_of_fits {next : Nat} (h : next + 1 < UInt32.size) :
    storedNumber next = next + 1 := by
  have hwords : UInt32.size < UInt64.size := by decide
  exact storedNumber_of_lt (by omega)

theorem Fits.passes {cell : Option Nat} (h : Fits cell) : Passes cell := by
  intro next hnext
  rw [storedNumber_of_fits (h next hnext)]
  exact h next hnext

/-- Only the largest word comes round to a code that is another cell's. -/
theorem Passes.fits {cell : Option Nat} (h : Passes cell)
    (hword : ∀ next, cell = some next → next < UInt64.size - 1) : Fits cell := by
  intro next hnext
  rw [← storedNumber_of_lt (hword next hnext)]
  exact h next hnext

theorem toNat_cellCode_some {next : Nat} (h : next + 1 < UInt32.size) :
    (cellCode (some next)).toNat = next + 1 := by
  rw [cellCode, storedNumber_of_fits h]
  exact UInt32.toNat_ofNat_of_lt' h

theorem cellOfCode_cellCode {cell : Option Nat} (h : Fits cell) :
    cellOfCode (cellCode cell) = cell := by
  cases cell with
  | none => rfl
  | some next =>
      have hcode := toNat_cellCode_some (h next rfl)
      have hne : cellCode (some next) ≠ 0 := by
        intro hzero
        rw [hzero] at hcode
        exact absurd hcode (by simp)
      rw [cellOfCode, if_neg hne, hcode, Nat.add_sub_cancel]

theorem packCell_eq_ok_iff (cell : Option Nat) (code : UInt32) :
    packCell cell = .ok code ↔ Passes cell ∧ code = cellCode cell := by
  cases cell with
  | none => simp [packCell, Passes, cellCode, eq_comm]
  | some next =>
      by_cases h : storedNumber next < UInt32.size
      · simp [packCell, Passes, cellCode, h, eq_comm]
      · simp [packCell, Passes, h]

theorem unpackCell_eq_ok_iff (states position : Nat) (code : UInt32) (cell : Option Nat) :
    unpackCell states position code = .ok cell ↔
      code.toNat ≤ states ∧ cell = cellOfCode code := by
  by_cases hzero : code = 0
  · subst hzero
    simp [unpackCell, cellOfCode, eq_comm]
  · have hpos : code.toNat ≠ 0 := fun h => hzero (UInt32.toNat_inj.1 h)
    by_cases hlt : code.toNat - 1 < states
    · have hle : code.toNat ≤ states := by omega
      simp [unpackCell, cellOfCode, hzero, hlt, hle, eq_comm]
    · have hle : ¬ code.toNat ≤ states := by omega
      simp [unpackCell, hzero, hlt, hle]

/-! ## Lists of cells -/

theorem packCells_eq_ok_iff {cells : List (Option Nat)} {buffer : List UInt32} :
    packCells cells = .ok buffer ↔ (∀ cell ∈ cells, Passes cell) ∧ buffer = cells.map cellCode :=
  mapM_eq_ok_iff packCell_eq_ok_iff

def storedCodes (p : PackedTable) (position : Nat) : List UInt32 :=
  (p.buffer.drop (position * p.legend.eventNames.length)).take p.legend.eventNames.length

theorem unpackRow_eq_ok_iff {p : PackedTable} {position : Nat} {row : Row} :
    p.unpackRow position = .ok row ↔
      (∀ code ∈ p.storedCodes position, code.toNat ≤ p.legend.stateNames.length) ∧
        row = (p.storedCodes position).map cellOfCode := by
  have hmap : p.unpackRow position = .ok row ↔ _ :=
    mapM_eq_ok_iff fun (a : UInt32 × Nat) cell =>
      unpackCell_eq_ok_iff p.legend.stateNames.length a.2 a.1 cell
  have hfst : ∀ (codes : List UInt32) (start : Nat),
      (codes.zipIdx start).map (fun a => cellOfCode a.1) = codes.map cellOfCode := by
    intro codes start
    rw [← List.zipIdx_map_fst start codes, List.map_map]
    simp [Function.comp_def]
  rw [hmap, hfst]
  refine and_congr_left fun _ => ⟨?_, ?_⟩
  · intro h code hcode
    obtain ⟨k, hk⟩ := List.mem_iff_getElem?.1 hcode
    exact h (code, _) (List.mk_add_mem_zipIdx_iff_getElem?.2 hk)
  · intro h a ha
    exact h a.1 (List.fst_mem_of_mem_zipIdx ha)

end PackedTable

end StateDiagram
