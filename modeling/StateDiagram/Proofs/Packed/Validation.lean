import StateDiagram.Proofs.Packed.RoundTrip

/-!
# What unpacking accepts

A packed table from anywhere is accepted exactly if it has the fixed layout, as many cells as its
names call for, a row order that is a permutation, and no cell beyond its states.  Otherwise it is
refused for the first of these that fails.
-/

namespace StateDiagram

namespace PackedTable

/-! ## The row order -/

/-- The first thing that keeps the list from being an order of the rows. -/
inductive OrderFault (positions : List Nat) (rows : Nat) : RowOrderFault → Prop
  | wrongLength : positions.length ≠ rows →
      OrderFault positions rows (.wrongLength positions.length rows)
  | outOfRange {before : List Nat} {position : Nat} {after : List Nat} :
      positions.length = rows → positions = before ++ position :: after →
      before.Nodup → (∀ earlier ∈ before, earlier < rows) →
      rows ≤ position → OrderFault positions rows (.outOfRange position)
  | repeated {before : List Nat} {position : Nat} {after : List Nat} :
      positions.length = rows → positions = before ++ position :: after →
      before.Nodup → (∀ earlier ∈ before, earlier < rows) →
      position ∈ before → OrderFault positions rows (.repeated position)

theorem firstFault?_append {rows : Nat} {seen before : List Nat}
    (h : firstFault? rows seen before = none) (after : List Nat) :
    firstFault? rows seen (before ++ after) = firstFault? rows (before.reverse ++ seen) after := by
  induction before generalizing seen with
  | nil => rfl
  | cons first before ih =>
      rw [firstFault?] at h
      split at h
      · contradiction
      · next hrange =>
          split at h
          · contradiction
          · next hseen =>
              rw [List.cons_append, firstFault?, if_neg hrange, if_neg hseen, ih h]
              simp

/-- The positions before the one at fault pass, and that one does not. -/
theorem exists_of_firstFault?_eq_some {rows : Nat} {seen positions : List Nat}
    {fault : RowOrderFault} (h : firstFault? rows seen positions = some fault) :
    ∃ before position after, positions = before ++ position :: after ∧
      firstFault? rows seen before = none ∧
      (rows ≤ position ∧ fault = .outOfRange position ∨
        position ∈ before.reverse ++ seen ∧ fault = .repeated position) := by
  induction positions generalizing seen with
  | nil => contradiction
  | cons first rest ih =>
      by_cases hrange : rows ≤ first
      · rw [firstFault?, if_pos hrange, Option.some.injEq] at h
        exact ⟨[], first, rest, rfl, rfl, .inl ⟨hrange, h.symm⟩⟩
      · by_cases hseen : first ∈ seen
        · rw [firstFault?, if_neg hrange, if_pos hseen, Option.some.injEq] at h
          exact ⟨[], first, rest, rfl, rfl, .inr ⟨hseen, h.symm⟩⟩
        · rw [firstFault?, if_neg hrange, if_neg hseen] at h
          obtain ⟨before, position, after, rfl, hbefore, hfault⟩ := ih h
          refine ⟨first :: before, position, after, rfl, ?_, by simpa using hfault⟩
          rw [firstFault?, if_neg hrange, if_neg hseen, hbefore]

theorem firstFault?_nil_eq_none_iff {rows : Nat} {positions : List Nat} :
    firstFault? rows [] positions = none ↔
      positions.Nodup ∧ ∀ position ∈ positions, position < rows := by
  simp [firstFault?_eq_none_iff]

theorem rowOrderFault?_eq_some_iff {positions : List Nat} {rows : Nat} {fault : RowOrderFault} :
    rowOrderFault? positions rows = some fault ↔ OrderFault positions rows fault := by
  constructor
  · intro h
    by_cases hlength : positions.length = rows
    · rw [rowOrderFault?, if_neg (not_not_intro hlength)] at h
      obtain ⟨before, position, after, hsplit, hbefore, hfault⟩ := exists_of_firstFault?_eq_some h
      obtain ⟨hnodup, hlt⟩ := firstFault?_nil_eq_none_iff.1 hbefore
      rcases hfault with ⟨hrange, rfl⟩ | ⟨hmem, rfl⟩
      · exact .outOfRange hlength hsplit hnodup hlt hrange
      · exact .repeated hlength hsplit hnodup hlt (by simpa using hmem)
    · rw [rowOrderFault?, if_pos hlength, Option.some.injEq] at h
      exact h ▸ .wrongLength hlength
  · intro h
    cases h with
    | wrongLength hlength => rw [rowOrderFault?, if_pos hlength]
    | outOfRange hlength hsplit hnodup hlt hrange =>
        rw [rowOrderFault?, if_neg (not_not_intro hlength), hsplit,
          firstFault?_append (firstFault?_nil_eq_none_iff.2 ⟨hnodup, hlt⟩), firstFault?,
          if_pos hrange]
    | repeated hlength hsplit hnodup hlt hmem =>
        rw [rowOrderFault?, if_neg (not_not_intro hlength), hsplit,
          firstFault?_append (firstFault?_nil_eq_none_iff.2 ⟨hnodup, hlt⟩), firstFault?,
          if_neg (Nat.not_le.2 (hlt _ hmem)), if_pos (by simpa using hmem)]

/-! ## Cells by their places -/

abbrev states (p : PackedTable) : Nat := p.legend.stateNames.length

abbrev events (p : PackedTable) : Nat := p.legend.eventNames.length

/-- The layout has a format, and there is a cell for each state and event. -/
structure Shaped (p : PackedTable) : Prop where
  layout : p.legend.layout = .fixedWidth
  length : p.buffer.length = p.states * p.events

/-- Where the buffer has the cell of a row and a column of the matrix, and what it holds. -/
def CodeAt (p : PackedTable) (row column cell : Nat) (code : UInt32) : Prop :=
  ∃ position, p.legend.rowPositions[row]? = some position ∧ column < p.events ∧
    cell = position * p.events + column ∧ p.buffer[cell]? = some code

variable {p : PackedTable}

theorem storedCodes_getElem?_eq_some_iff {position column : Nat} {code : UInt32} :
    (p.storedCodes position)[column]? = some code ↔
      column < p.events ∧ p.buffer[position * p.events + column]? = some code := by
  rw [storedCodes, List.getElem?_take]
  split
  · next h => simp [List.getElem?_drop, h]
  · next h => simp [h]

theorem mem_storedCodes_iff {position : Nat} {code : UInt32} :
    code ∈ p.storedCodes position ↔
      ∃ column < p.events, p.buffer[position * p.events + column]? = some code := by
  simp only [List.mem_iff_getElem?, storedCodes_getElem?_eq_some_iff]

theorem slice_le {position : Nat} (h : p.Shaped) (hlt : position < p.states) :
    position * p.events + p.events ≤ p.buffer.length := by
  rw [h.length, ← Nat.succ_mul]
  exact Nat.mul_le_mul_right p.events hlt

theorem length_storedCodes {position : Nat} (h : p.Shaped) (hlt : position < p.states) :
    (p.storedCodes position).length = p.events := by
  have hle := slice_le h hlt
  rw [Nat.add_comm] at hle
  rw [storedCodes, List.length_take, List.length_drop]
  exact Nat.min_eq_left (Nat.le_sub_of_add_le hle)

/-- A permutation visits every cell of the buffer. -/
theorem forall_storedCodes_iff (h : p.Shaped)
    (hperm : p.legend.rowPositions.Perm (List.range p.states)) {passes : UInt32 → Prop} :
    (∀ position ∈ p.legend.rowPositions, ∀ code ∈ p.storedCodes position, passes code) ↔
      ∀ code ∈ p.buffer, passes code := by
  simp only [hperm.mem_iff, List.mem_range]
  constructor
  · intro hall code hcode
    obtain ⟨cell, hcell⟩ := List.mem_iff_getElem?.1 hcode
    have hlt := (List.getElem?_eq_some_iff.1 hcell).1
    rw [h.length] at hlt
    have hevents : 0 < p.events := Nat.pos_of_ne_zero fun hzero => by simp [hzero] at hlt
    refine hall (cell / p.events) (Nat.div_lt_of_lt_mul (by rwa [Nat.mul_comm])) code ?_
    refine mem_storedCodes_iff.2 ⟨cell % p.events, Nat.mod_lt cell hevents, ?_⟩
    rwa [Nat.mul_comm, Nat.div_add_mod]
  · intro hall position _ code hcode
    obtain ⟨column, -, hcell⟩ := mem_storedCodes_iff.1 hcode
    exact hall code (List.mem_of_getElem? hcell)

/-! ## Cells that are refused -/

theorem isOk_unpackCell {states cell : Nat} {code : UInt32} :
    (unpackCell states cell code).isOk = true ↔ code.toNat ≤ states :=
  isOk_iff_of_eq_ok_iff (unpackCell_eq_ok_iff states cell code)

theorem unpackCell_eq_error_iff {states cell : Nat} {code : UInt32} {e : PackError} :
    unpackCell states cell code = .error e ↔
      states < code.toNat ∧ e = .cellOutOfRange cell code states := by
  by_cases hzero : code = 0
  · simp [unpackCell, hzero]
  · have hpos : code.toNat ≠ 0 := fun h => hzero (UInt32.toNat_inj.1 h)
    by_cases hlt : code.toNat - 1 < states
    · have hle : ¬ states < code.toNat := by omega
      simp [unpackCell, hzero, hlt, hle]
    · have hbeyond : states < code.toNat := by omega
      simp [unpackCell, hzero, hlt, hbeyond, eq_comm]

theorem isOk_unpackRow {position : Nat} :
    (p.unpackRow position).isOk = true ↔ ∀ code ∈ p.storedCodes position, code.toNat ≤ p.states :=
  isOk_iff_of_eq_ok_iff fun _ => unpackRow_eq_ok_iff

theorem unpackRow_eq_error_iff {position : Nat} {e : PackError} :
    p.unpackRow position = .error e ↔
      ∃ column code, (p.storedCodes position)[column]? = some code ∧ p.states < code.toNat ∧
        e = .cellOutOfRange (position * p.events + column) code p.states ∧
        ∀ before < column, ∀ other, (p.storedCodes position)[before]? = some other →
          other.toNat ≤ p.states := by
  have hcells : p.unpackRow position =
      ((p.storedCodes position).zipIdx (position * p.events)).mapM fun a =>
        unpackCell p.states a.2 a.1 := rfl
  simp only [hcells, mapM_eq_error_iff, unpackCell_eq_error_iff, isOk_unpackCell,
    List.getElem?_zipIdx, Option.map_eq_some_iff]
  constructor
  · rintro ⟨column, _, ⟨code, hcode, rfl⟩, ⟨hbeyond, rfl⟩, hbefore⟩
    exact ⟨column, code, hcode, hbeyond, rfl,
      fun before hlt other hother => hbefore before hlt _ ⟨other, hother, rfl⟩⟩
  · rintro ⟨column, code, hcode, hbeyond, rfl, hbefore⟩
    refine ⟨column, _, ⟨code, hcode, rfl⟩, ⟨hbeyond, rfl⟩, ?_⟩
    rintro before hlt _ ⟨other, hother, rfl⟩
    exact hbefore before hlt other hother

theorem unpackRows_eq_error_iff {e : PackError} :
    p.unpackRows = .error e ↔
      ∃ row column cell code, p.CodeAt row column cell code ∧ p.states < code.toNat ∧
        e = .cellOutOfRange cell code p.states ∧
        ∀ row' column' cell' code', p.CodeAt row' column' cell' code' →
          row' < row ∨ row' = row ∧ column' < column → code'.toNat ≤ p.states := by
  simp only [unpackRows, mapM_eq_error_iff, unpackRow_eq_error_iff, isOk_unpackRow,
    storedCodes_getElem?_eq_some_iff, mem_storedCodes_iff]
  constructor
  · rintro ⟨row, position, hposition, ⟨column, code, ⟨hcolumn, hcode⟩, hbeyond, rfl, hbefore⟩,
      habove⟩
    refine ⟨row, column, _, code, ⟨position, hposition, hcolumn, rfl, hcode⟩, hbeyond, rfl, ?_⟩
    rintro row' column' cell' code' ⟨position', hposition', hcolumn', rfl, hcode'⟩
      (hlt | ⟨rfl, hlt⟩)
    · exact habove row' hlt position' hposition' code' ⟨column', hcolumn', hcode'⟩
    · obtain rfl : position = position' := Option.some.inj (hposition.symm.trans hposition')
      exact hbefore column' hlt code' ⟨hcolumn', hcode'⟩
  · rintro ⟨row, column, _, code, ⟨position, hposition, hcolumn, rfl, hcode⟩, hbeyond, rfl,
      hbefore⟩
    refine ⟨row, position, hposition, ⟨column, code, ⟨hcolumn, hcode⟩, hbeyond, rfl, ?_⟩, ?_⟩
    · rintro column' hlt code' ⟨hcolumn', hcode'⟩
      exact hbefore row column' _ code' ⟨position, hposition, hcolumn', rfl, hcode'⟩
        (.inr ⟨rfl, hlt⟩)
    · rintro row' hlt position' hposition' code' ⟨column', hcolumn', hcode'⟩
      exact hbefore row' column' _ code' ⟨position', hposition', hcolumn', rfl, hcode'⟩ (.inl hlt)

/-! ## Unpacking -/

/-- Why a packed table is refused.  Each reason takes for granted that those before it do not
apply. -/
inductive Refusal (p : PackedTable) : PackError → Prop
  | layout : p.legend.layout = .strided → Refusal p .unimplemented
  | shape : p.legend.layout = .fixedWidth → p.buffer.length ≠ p.states * p.events →
      Refusal p (.shapeMismatch (p.states * p.events) p.buffer.length)
  | rowOrder {fault : RowOrderFault} : p.Shaped →
      OrderFault p.legend.rowPositions p.states fault → Refusal p (.badRowOrder fault)
  | cell {row column cell : Nat} {code : UInt32} : p.Shaped →
      p.legend.rowPositions.Perm (List.range p.states) →
      p.CodeAt row column cell code → p.states < code.toNat →
      (∀ row' column' cell' code', p.CodeAt row' column' cell' code' →
        row' < row ∨ row' = row ∧ column' < column → code'.toNat ≤ p.states) →
      Refusal p (.cellOutOfRange cell code p.states)

theorem unpack_of_shaped (h : p.Shaped) :
    p.unpack = match rowOrderFault? p.legend.rowPositions p.states with
      | some fault => .error (.badRowOrder fault)
      | none => p.unpackRows.map TransitionMatrix.mk := by
  have hlayout : ¬ p.legend.layout = .strided := by simp [h.layout]
  exact (if_neg hlayout).trans (if_neg (not_not_intro h.length))

theorem unpack_eq_error_iff {e : PackError} : p.unpack = .error e ↔ p.Refusal e := by
  constructor
  · intro h
    cases hlayout : p.legend.layout with
    | strided =>
        rw [unpack, if_pos hlayout, Except.error.injEq] at h
        exact h ▸ .layout hlayout
    | fixedWidth =>
        by_cases hlength : p.buffer.length = p.states * p.events
        · have hshaped : p.Shaped := ⟨hlayout, hlength⟩
          rw [unpack_of_shaped hshaped] at h
          cases hfault : rowOrderFault? p.legend.rowPositions p.states with
          | some fault =>
              simp only [hfault, Except.error.injEq] at h
              exact h ▸ .rowOrder hshaped (rowOrderFault?_eq_some_iff.1 hfault)
          | none =>
              simp only [hfault, map_eq_error_iff] at h
              obtain ⟨row, column, cell, code, hcode, hbeyond, rfl, hbefore⟩ :=
                unpackRows_eq_error_iff.1 h
              exact .cell hshaped (rowOrderFault?_eq_none_iff_perm.1 hfault) hcode hbeyond hbefore
        · rw [unpack, if_neg (by simp [hlayout]), if_pos hlength, Except.error.injEq] at h
          exact h ▸ .shape hlayout hlength
  · intro h
    cases h with
    | layout hlayout => rw [unpack, if_pos hlayout]
    | shape hlayout hlength => rw [unpack, if_neg (by simp [hlayout]), if_pos hlength]
    | rowOrder hshaped hfault =>
        rw [unpack_of_shaped hshaped, rowOrderFault?_eq_some_iff.2 hfault]
    | cell hshaped hperm hcode hbeyond hbefore =>
        rw [unpack_of_shaped hshaped, rowOrderFault?_eq_none_iff_perm.2 hperm]
        exact map_eq_error_iff.2 (unpackRows_eq_error_iff.2
          ⟨_, _, _, _, hcode, hbeyond, rfl, hbefore⟩)

theorem exists_unpack_eq_ok_iff : (∃ m, p.unpack = .ok m) ↔
    p.Shaped ∧ p.legend.rowPositions.Perm (List.range p.states) ∧
      ∀ code ∈ p.buffer, code.toNat ≤ p.states := by
  constructor
  · rintro ⟨m, hm⟩
    obtain ⟨hlayout, hlength, hfault, hcodes, -⟩ := unpack_eq_ok_iff.1 hm
    have hperm := rowOrderFault?_eq_none_iff_perm.1 hfault
    exact ⟨⟨hlayout, hlength⟩, hperm, (forall_storedCodes_iff ⟨hlayout, hlength⟩ hperm).1 hcodes⟩
  · rintro ⟨hshaped, hperm, hcodes⟩
    exact ⟨⟨_⟩, unpack_eq_ok_iff.2 ⟨hshaped.layout, hshaped.length,
      rowOrderFault?_eq_none_iff_perm.2 hperm, (forall_storedCodes_iff hshaped hperm).2 hcodes,
      rfl⟩⟩

theorem cellOfCode_lt {states next : Nat} {code : UInt32} (hle : code.toNat ≤ states)
    (h : cellOfCode code = some next) : next < states := by
  rw [cellOfCode, Option.ite_none_left_eq_some, Option.some.injEq] at h
  obtain ⟨hzero, rfl⟩ := h
  have hpos : code.toNat ≠ 0 := fun h => hzero (UInt32.toNat_inj.1 h)
  omega

/-- Unpacking accepts exactly the packed tables of the right shape whose row order is a permutation
and whose cells name states, and then reads every cell from its place.  It never reads beyond the
buffer, and refuses everything else for the first reason that applies. -/
theorem unpack_validates (p : PackedTable) :
    ((∃ m, p.unpack = .ok m) ↔
      p.legend.layout = .fixedWidth ∧ p.buffer.length = p.states * p.events ∧
      p.legend.rowPositions.Perm (List.range p.states) ∧
      ∀ code ∈ p.buffer, code.toNat ≤ p.states) ∧
    (∀ m, p.unpack = .ok m → m.size = p.states ∧
      (∀ row ∈ m.rows, row.length = p.events ∧ ∀ next, some next ∈ row → next < p.states) ∧
      ∀ row < p.states, ∀ column < p.events, ∃ position code,
        p.legend.rowPositions[row]? = some position ∧
        p.buffer[position * p.events + column]? = some code ∧
        m.get? row column = if code = 0 then none else some (code.toNat - 1)) ∧
    (p.Shaped → rowOrderFault? p.legend.rowPositions p.states = none →
      ∀ position ∈ p.legend.rowPositions,
        position * p.events + p.events ≤ p.buffer.length) ∧
    ∀ e, p.unpack = .error e ↔ p.Refusal e := by
  refine ⟨?_, ?_, ?_, fun e => unpack_eq_error_iff⟩
  · rw [exists_unpack_eq_ok_iff]
    exact ⟨fun ⟨hshaped, hrest⟩ => ⟨hshaped.layout, hshaped.length, hrest⟩,
      fun ⟨hlayout, hlength, hrest⟩ => ⟨⟨hlayout, hlength⟩, hrest⟩⟩
  · intro m hm
    obtain ⟨hlayout, hlength, hfault, hcodes, hrows⟩ := unpack_eq_ok_iff.1 hm
    have hshaped : p.Shaped := ⟨hlayout, hlength⟩
    obtain ⟨hpositions, -, hlt⟩ := rowOrderFault?_eq_none_iff.1 hfault
    refine ⟨by rw [TransitionMatrix.size, hrows, List.length_map, hpositions], ?_, ?_⟩
    · intro row hrow
      rw [hrows] at hrow
      obtain ⟨position, hposition, rfl⟩ := List.mem_map.1 hrow
      refine ⟨?_, fun next hnext => ?_⟩
      · rw [List.length_map, length_storedCodes hshaped (hlt position hposition)]
      · obtain ⟨code, hcode, hcell⟩ := List.mem_map.1 hnext
        exact cellOfCode_lt (hcodes position hposition code hcode) hcell
    · intro row hrow column hcolumn
      have hposition := List.getElem?_eq_getElem (Nat.lt_of_lt_of_eq hrow hpositions.symm)
      have hmem := List.mem_of_getElem? hposition
      have hread := length_storedCodes hshaped (hlt _ hmem)
      have hcode := List.getElem?_eq_getElem (Nat.lt_of_lt_of_eq hcolumn hread.symm)
      refine ⟨_, _, hposition, (storedCodes_getElem?_eq_some_iff.1 hcode).2, ?_⟩
      simp [TransitionMatrix.get?, TransitionMatrix.row?, hrows, hposition, hcode, cellOfCode]
  · intro hshaped hfault position hposition
    exact slice_le hshaped ((rowOrderFault?_eq_none_iff.1 hfault).2.2 position hposition)

/-- The second cell of this buffer belongs to the first row, so it is the one that is reported. -/
example : unpack ⟨[8, 9], ⟨.fixedWidth, ["on", "off"], ["push"], [1, 0], []⟩⟩ =
    .error (.cellOutOfRange 1 9 2) := by decide

end PackedTable

end StateDiagram
