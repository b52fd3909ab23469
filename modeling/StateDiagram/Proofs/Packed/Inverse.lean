import StateDiagram.Proofs.Packed.Arrangement
import StateDiagram.Proofs.Packed.Validation

/-!
# Packing and unpacking as inverses

Packing takes the shape of a matrix from its rows and unpacking takes it from the names of the
legend.  So a matrix comes back only if the two agree, and a rectangular one for which they do not
is refused.  In the other direction a matrix can be stored with its rows in any order, and only the
one that packing chooses comes back.
-/

namespace StateDiagram

namespace TransitionMatrix

end TransitionMatrix

namespace PackedTable

variable {p : PackedTable} {m : TransitionMatrix} {index : Index}

/-! ## The shape of what was packed -/

theorem size_of_unpack (h : p.unpack = .ok m) : m.size = p.states := by
  obtain ⟨-, -, hfault, -, hrows⟩ := unpack_eq_ok_iff.1 h
  rw [TransitionMatrix.size, hrows, List.length_map, (rowOrderFault?_eq_none_iff.1 hfault).1]

theorem fits_cellOfCode (code : UInt32) : Fits (cellOfCode code) := by
  intro next h
  rw [cellOfCode, Option.ite_none_left_eq_some, Option.some.injEq] at h
  obtain ⟨hzero, rfl⟩ := h
  have hpos : code.toNat ≠ 0 := fun h => hzero (UInt32.toNat_inj.1 h)
  have hlt := code.toNat_lt_size
  omega

theorem fits_of_unpack (h : p.unpack = .ok m) {row : Row} (hrow : row ∈ m.rows)
    {cell : Option Nat} (hcell : cell ∈ row) : Fits cell := by
  obtain ⟨-, -, -, -, hrows⟩ := unpack_eq_ok_iff.1 h
  rw [hrows] at hrow
  obtain ⟨position, -, rfl⟩ := List.mem_map.1 hrow
  obtain ⟨code, -, rfl⟩ := List.mem_map.1 hcell
  exact fits_cellOfCode code

section Packed

variable {options : PackOptions} {tokens : NameTokens}

theorem rowPositions_of_pack (hpack : pack options tokens m index = .ok p) :
    p.legend.rowPositions = m.rowPositions := by
  obtain ⟨-, -, rfl⟩ := pack_eq_ok_iff.1 hpack
  rfl

theorem buffer_of_pack (hpack : pack options tokens m index = .ok p) :
    p.buffer = m.storedRows.flatten.map cellCode := by
  obtain ⟨-, -, rfl⟩ := pack_eq_ok_iff.1 hpack
  rfl

end Packed

/-! ## The largest word -/

section Reread

variable {options : PackOptions} {tokens : NameTokens} (hlayout : options.layout = .fixedWidth)

include hlayout

end Reread

/-- Rows of different lengths can have the right number of cells between them, and are then read
back as another matrix. -/
example : pack .standard (fun _ _ => "abcdefgh") ⟨[[], [some 0, some 1]]⟩
    ⟨[.text "A", .text "B"], [.text "go"]⟩ >>= unpack = .ok ⟨[[some 0], [some 1]]⟩ := by cbv

/-! ## Packed tables that come back -/

/-- The number of cells that hold a transition in the row that is stored at a position. -/
def setCodes (p : PackedTable) (position : Nat) : Nat :=
  (p.storedCodes position).countP fun code => code ≠ 0

/-- The stored rows have ascending numbers of transitions, and rows with equally many stand as in
the matrix. -/
structure Canonical (p : PackedTable) : Prop where
  ascending : ∀ {first second}, first < second → second < p.states →
    p.setCodes first ≤ p.setCodes second
  stable : ∀ {row other first second : Nat}, p.legend.rowPositions[row]? = some first →
    p.legend.rowPositions[other]? = some second → first < second →
    p.setCodes first = p.setCodes second → row < other

theorem cellCode_cellOfCode (code : UInt32) : cellCode (cellOfCode code) = code := by
  by_cases hzero : code = 0
  · rw [cellOfCode, if_pos hzero, hzero]
    rfl
  · have hpos : code.toNat ≠ 0 := fun h => hzero (UInt32.toNat_inj.1 h)
    have hcode := code.toNat_lt_size
    have hback : code.toNat - 1 + 1 = code.toNat := Nat.sub_add_cancel (Nat.pos_of_ne_zero hpos)
    rw [cellOfCode, if_neg hzero, cellCode, storedNumber_of_fits (by omega), hback,
      UInt32.ofNat_toNat]

theorem rowAt_of_unpack (h : p.unpack = .ok m) {row position : Nat}
    (hposition : p.legend.rowPositions[row]? = some position) :
    m.rowAt row = (p.storedCodes position).map cellOfCode := by
  obtain ⟨-, -, -, -, hrows⟩ := unpack_eq_ok_iff.1 h
  rw [TransitionMatrix.rowAt, TransitionMatrix.row?, hrows, List.getElem?_map, hposition]
  rfl

theorem setCells_rowAt (h : p.unpack = .ok m) {row position : Nat}
    (hposition : p.legend.rowPositions[row]? = some position) :
    (m.rowAt row).setCells = p.setCodes position := by
  rw [rowAt_of_unpack h hposition, Row.setCells, List.countP_map, setCodes]
  apply List.countP_congr
  intro code _
  simp [cellOfCode]

theorem map_cellCode_rowAt (h : p.unpack = .ok m) {row position : Nat}
    (hposition : p.legend.rowPositions[row]? = some position) :
    (m.rowAt row).map cellCode = p.storedCodes position := by
  rw [rowAt_of_unpack h hposition, List.map_map]
  refine (List.map_congr_left fun code _ => ?_).trans (List.map_id _)
  exact cellCode_cellOfCode code

/-- The row numbers in the order in which the rows are stored, which undoes the row positions. -/
def storedOrder (p : PackedTable) : List Nat :=
  (List.range p.states).map p.legend.rowPositions.idxOf

section StoredOrder

variable (hperm : p.legend.rowPositions.Perm (List.range p.states))

include hperm

theorem rowPositions_idxOf {position : Nat} (h : position < p.states) :
    p.legend.rowPositions[p.legend.rowPositions.idxOf position]? = some position :=
  List.getElem?_idxOf (hperm.mem_iff.2 (List.mem_range.2 h))

theorem rowPositions_eq_some_iff {row position : Nat} :
    p.legend.rowPositions[row]? = some position ↔ p.storedOrder[position]? = some row := by
  obtain ⟨-, hnodup, hlt⟩ := perm_range_iff.1 hperm
  constructor
  · intro h
    obtain ⟨hrow, hposition⟩ := List.getElem?_eq_some_iff.1 h
    have hrange : (List.range p.states)[position]? = some position :=
      List.getElem?_range (hlt position (List.mem_of_getElem? h))
    rw [storedOrder, List.getElem?_map, hrange, Option.map_some, ← hposition,
      hnodup.idxOf_getElem row hrow]
  · intro h
    rw [storedOrder, List.getElem?_map] at h
    obtain ⟨number, hnumber, rfl⟩ := Option.map_eq_some_iff.1 h
    obtain ⟨hbelow, rfl⟩ := List.getElem?_eq_some_iff.1 hnumber
    rw [List.getElem_range]
    exact rowPositions_idxOf hperm (by simpa using hbelow)

theorem storedOrder_perm : p.storedOrder.Perm (List.range p.states) := by
  obtain ⟨hlength, -, -⟩ := perm_range_iff.1 hperm
  refine perm_range_iff.2 ⟨by simp [storedOrder], ?_, ?_⟩
  · refine List.Nodup.map_on ?_ List.nodup_range
    intro first hfirst second hsecond heq
    have hback := rowPositions_idxOf hperm (List.mem_range.1 hfirst)
    rw [heq, rowPositions_idxOf hperm (List.mem_range.1 hsecond), Option.some.injEq] at hback
    exact hback.symm
  · intro row hrow
    obtain ⟨position, hposition⟩ := List.mem_iff_getElem?.1 hrow
    have hrow := (rowPositions_eq_some_iff hperm).2 hposition
    exact Nat.lt_of_lt_of_eq (List.getElem?_eq_some_iff.1 hrow).1 hlength

end StoredOrder

theorem rowPositions_perm_of_unpack (h : p.unpack = .ok m) :
    p.legend.rowPositions.Perm (List.range p.states) :=
  (exists_unpack_eq_ok_iff.1 ⟨m, h⟩).2.1

theorem canonical_iff_stableOrder (h : p.unpack = .ok m) :
    p.Canonical ↔ m.StableOrder p.storedOrder := by
  have hperm := rowPositions_perm_of_unpack h
  have hstored := storedOrder_perm hperm
  have hlength : p.storedOrder.length = p.states := (perm_range_iff.1 hstored).1
  have hcount : ∀ {position} (hlt : position < p.storedOrder.length),
      (m.rowAt p.storedOrder[position]).setCells = p.setCodes position := fun hlt =>
    setCells_rowAt h ((rowPositions_eq_some_iff hperm).2 (List.getElem?_eq_getElem hlt))
  constructor
  · intro hcanonical
    refine ⟨size_of_unpack h ▸ hstored, ?_, ?_⟩
    · rw [List.pairwise_iff_getElem]
      intro first second hfirst hsecond hlt
      rw [hcount hfirst, hcount hsecond]
      exact hcanonical.ascending hlt (hlength ▸ hsecond)
    · rw [List.pairwise_iff_getElem]
      intro first second hfirst hsecond hlt
      rw [hcount hfirst, hcount hsecond]
      exact hcanonical.stable ((rowPositions_eq_some_iff hperm).2 (List.getElem?_eq_getElem hfirst))
        ((rowPositions_eq_some_iff hperm).2 (List.getElem?_eq_getElem hsecond)) hlt
  · intro hstable
    constructor
    · intro first second hlt hsecond
      rw [← hlength] at hsecond
      have hfirst := Nat.lt_trans hlt hsecond
      rw [← hcount hfirst, ← hcount hsecond]
      exact List.pairwise_iff_getElem.1 hstable.ascending first second hfirst hsecond hlt
    · intro row other first second hrow hother hlt
      obtain ⟨hfirst, rfl⟩ :=
        List.getElem?_eq_some_iff.1 ((rowPositions_eq_some_iff hperm).1 hrow)
      obtain ⟨hsecond, rfl⟩ :=
        List.getElem?_eq_some_iff.1 ((rowPositions_eq_some_iff hperm).1 hother)
      rw [← hcount hfirst, ← hcount hsecond]
      exact List.pairwise_iff_getElem.1 hstable.stable first second hfirst hsecond hlt

theorem storedOrder_eq_iff (h : p.unpack = .ok m) :
    p.storedOrder = m.storedOrder ↔ p.legend.rowPositions = m.rowPositions := by
  have hperm := rowPositions_perm_of_unpack h
  constructor
  · intro horder
    apply List.ext_getElem?
    intro row
    apply Option.ext
    intro position
    rw [rowPositions_eq_some_iff hperm, horder, m.rowPositions_eq_some_iff]
  · intro hpositions
    apply List.ext_getElem?
    intro position
    apply Option.ext
    intro row
    rw [← rowPositions_eq_some_iff hperm, hpositions, m.rowPositions_eq_some_iff]

theorem buffer_of_unpack (h : p.unpack = .ok m) :
    p.buffer = (p.storedOrder.map m.rowAt).flatten.map cellCode := by
  have hperm := rowPositions_perm_of_unpack h
  obtain ⟨-, hlength, -, -, -⟩ := unpack_eq_ok_iff.1 h
  have hcodes : ∀ position ∈ List.range p.states,
      (m.rowAt (p.legend.rowPositions.idxOf position)).map cellCode = p.storedCodes position :=
    fun position hposition =>
      map_cellCode_rowAt h (rowPositions_idxOf hperm (List.mem_range.1 hposition))
  calc
    p.buffer = (List.range p.states).flatMap p.storedCodes := (flatMap_take_drop hlength).symm
    _ = (p.storedOrder.map m.rowAt).flatten.map cellCode := by
      rw [storedOrder, List.map_map, List.map_flatten, List.map_map, List.flatMap]
      exact congrArg List.flatten (List.map_congr_left fun position hposition =>
        (hcodes position hposition).symm)

/-- What a packed table is unpacked to can be packed again, with any index table.  This gives the
same buffer and the same row positions exactly if the rows were stored in the one order that packing
chooses. -/
theorem pack_unpack_iff_canonical (tokenLength : Nat) (tokens : NameTokens) (index : Index)
    (h : p.unpack = .ok m) :
    ∃ again, pack ⟨.fixedWidth, tokenLength⟩ tokens m index = .ok again ∧
      (again.buffer = p.buffer ∧ again.legend.rowPositions = p.legend.rowPositions ↔
        p.Canonical) := by
  have hpack : pack ⟨.fixedWidth, tokenLength⟩ tokens m index = .ok _ :=
    pack_eq_ok_iff.2 ⟨rfl, fun _ hrow _ hcell => (fits_of_unpack h hrow hcell).passes, rfl⟩
  refine ⟨_, hpack, ?_⟩
  rw [buffer_of_pack hpack, rowPositions_of_pack hpack, canonical_iff_stableOrder h]
  constructor
  · rintro ⟨-, hpositions⟩
    rw [(storedOrder_eq_iff h).2 hpositions.symm]
    exact m.stableOrder_storedOrder
  · intro hstable
    have horder := hstable.unique m.stableOrder_storedOrder
    refine ⟨?_, ((storedOrder_eq_iff h).1 horder).symm⟩
    rw [buffer_of_unpack h, horder, m.storedRows_eq]

/-- Two equal rows can be stored either way round, but only one way is packed. -/
theorem pack_unpack_iff_canonical_of_twins :
    let index : Index := ⟨[.text "A", .text "B"], [.text "go"]⟩
    let straight : PackedTable := ⟨[1, 1], ⟨.fixedWidth, ["A", "B"], ["go"], [0, 1], []⟩⟩
    let swapped : PackedTable := ⟨[1, 1], ⟨.fixedWidth, ["A", "B"], ["go"], [1, 0], []⟩⟩
    let m : TransitionMatrix := ⟨[[some 0], [some 0]]⟩
    straight.unpack = .ok m ∧ swapped.unpack = .ok m ∧
      ∃ again, pack .standard (fun _ _ => "abcdefgh") m index = .ok again ∧
        again.buffer = straight.buffer ∧ again.buffer = swapped.buffer ∧
        again.legend.rowPositions = straight.legend.rowPositions ∧
        again.legend.rowPositions ≠ swapped.legend.rowPositions := by
  intro index straight swapped m
  have hstraight : straight.unpack = .ok m := by decide
  have hswapped : swapped.unpack = .ok m := by decide
  have hcanonical : straight.Canonical := by
    have hcount : ∀ position < 2, straight.setCodes position = 1 := by decide
    constructor
    · intro first second hlt hsecond
      rw [hcount first (Nat.lt_trans hlt hsecond), hcount second hsecond]
    · intro row other first second hrow hother hlt _
      have hsame : ∀ {n position : Nat}, [0, 1][n]? = some position → n = position := by
        rintro (_ | _ | n) position h <;> simp_all
      rwa [hsame hrow, hsame hother]
  have hnot : ¬ swapped.Canonical := fun h => by
    have hlt := @Canonical.stable swapped h 1 0 0 1 rfl rfl (by decide) (by decide)
    contradiction
  obtain ⟨again, hpack, hsame⟩ :=
    pack_unpack_iff_canonical 8 (fun _ _ => "abcdefgh") index hstraight
  obtain ⟨other, hother, hdiffers⟩ :=
    pack_unpack_iff_canonical 8 (fun _ _ => "abcdefgh") index hswapped
  obtain rfl : again = other := Except.ok.inj (hpack.symm.trans hother)
  obtain ⟨hbuffer, hpositions⟩ := hsame.2 hcanonical
  exact ⟨hstraight, hswapped, again, hpack, hbuffer, hbuffer, hpositions,
    fun h => hnot (hdiffers.1 ⟨hbuffer, h⟩)⟩

end PackedTable

end StateDiagram
