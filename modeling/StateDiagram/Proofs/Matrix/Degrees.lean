import StateDiagram.Proofs.Matrix.Lossless
import StateDiagram.Stats

/-!
# Degrees read off the matrix

The entries of a state are its named ones, which are the set cells of its row, and maybe a default
entry.  So all that is counted over the dictionaries can be counted over the matrix as well, and it
can be counted on one walk over the table.
-/

namespace StateDiagram

/-! ## Counting on one walk -/

namespace Stats

/-- What has been counted so far.  The events are kept apart, to count each of them once. -/
structure Tally where
  seen : List Ident
  counts : Stats

namespace Tally

def add (tally : Tally) (d : Dictionary) : Tally where
  seen := d.gates.foldl Assoc.addKey tally.seen
  counts :=
    { tally.counts with
      hasDefault := tally.counts.hasDefault || d.default?.isSome
      terminalStates := tally.counts.terminalStates + if d.isEmpty then 1 else 0
      maxOutDegree := max tally.counts.maxOutDegree d.size
      minOutDegree := min tally.counts.minOutDegree d.size }

theorem foldl_add (tally : Tally) (dictionaries : List Dictionary) :
    dictionaries.foldl add tally =
      { seen := (dictionaries.flatMap Dictionary.gates).foldl Assoc.addKey tally.seen
        counts :=
          { tally.counts with
            hasDefault := tally.counts.hasDefault || dictionaries.any fun d => d.default?.isSome
            terminalStates :=
              tally.counts.terminalStates + dictionaries.countP Dictionary.isEmpty
            maxOutDegree := (dictionaries.map Dictionary.size).foldl max tally.counts.maxOutDegree
            minOutDegree :=
              (dictionaries.map Dictionary.size).foldl min tally.counts.minOutDegree } } := by
  induction dictionaries generalizing tally with
  | nil => simp
  | cons d dictionaries ih =>
      rw [List.foldl_cons, ih]
      simp [add, List.foldl_append, List.countP_cons, Bool.or_assoc, Nat.add_comm,
        Nat.add_left_comm]

end Tally

/-- The smallest degree is looked for from a bound downwards, unless there is no state at all. -/
def counted (bound : Nat) (t : Table) : Stats :=
  let start : Stats :=
    { events := 0
      hasDefault := false
      states := t.size
      terminalStates := 0
      maxOutDegree := 0
      minOutDegree := if t.isEmpty then 0 else bound }
  let tally := (t.rows.map Prod.snd).foldl Tally.add ⟨[], start⟩
  { tally.counts with events := tally.seen.length }

theorem counted_eq_ofTable {bound : Nat} {t : Table}
    (h : ∀ row ∈ t.rows, row.2.size ≤ bound) : counted bound t = ofTable t := by
  have hgates : (t.rows.map Prod.snd).flatMap Dictionary.gates =
      t.namedEntries.filterMap Entry.event := t.gates_eq
  have hseen : (t.namedEntries.filterMap Entry.event).foldl Assoc.addKey [] =
      (t.namedEntries.filterMap Entry.event).eraseDups :=
    (Assoc.eraseDups_append_eq_foldl [] _).symm
  let degrees := (t.rows.map Prod.snd).map Dictionary.size
  have hmax : degrees.foldl max 0 = degrees.max?.getD 0 := by
    rw [List.foldl_max, Nat.zero_max]
  have hmin : degrees.foldl min (if t.isEmpty then 0 else bound) = degrees.min?.getD 0 := by
    cases hrows : t.rows with
    | nil => simp [degrees, Table.isEmpty, hrows]
    | cons row rows =>
        -- The bound gives way to the first degree, since no degree is above it.
        have hrow : row.2.size ≤ bound := h row (by simp [hrows])
        simp only [degrees, Table.isEmpty, hrows, List.map_cons, List.isEmpty_cons,
          Bool.false_eq_true, if_false, List.foldl_cons, List.min?_cons', Option.getD_some,
          Nat.min_eq_right hrow]
  simp only [counted, ofTable, Tally.foldl_add, hgates, hseen, Bool.false_or, Nat.zero_add]
  rw [← hmax, ← hmin]

end Stats

/-! ## Degrees -/

namespace Table

def hasDefaultAt (t : Table) (i : Nat) : Bool := ((t.dictionary? i).bind (·.default?)).isSome

/-- The transitions of the state at a position, as the matrix and the default entry show them. -/
def outDegree (t : Table) (i : Nat) : Nat :=
  ((t.matrix.row? i).map Row.setCells).getD 0 + if t.hasDefaultAt i then 1 else 0

end Table

theorem Dictionary.WellFormed.size_eq {d : Dictionary} (h : d.WellFormed) :
    d.size = d.named.length + if d.default?.isSome then 1 else 0 :=
  (Assoc.length_erase_add h.keys_nodup).symm

namespace Table

namespace WellFormed

variable {t : Table} {d : Dictionary} {i : Nat}

theorem outDegree_eq (h : t.WellFormed) (hd : t.dictionary? i = some d) :
    t.outDegree i = d.size := by
  rw [outDegree, hasDefaultAt, h.row?_matrix, hd, Option.map_some, Option.map_some,
    Option.getD_some, h.setCells_rowOf hd, Option.bind_some,
    (h.dictionary_of_dictionary? hd).size_eq]

theorem map_outDegree (h : t.WellFormed) :
    (List.range t.size).map t.outDegree = (t.rows.map Prod.snd).map Dictionary.size := by
  apply List.ext_getElem
  · simp [size]
  · intro i hi hi'
    rw [List.getElem_map, List.getElem_range, List.getElem_map, List.getElem_map]
    have hlt : i < t.rows.length := by simpa using hi'
    exact h.outDegree_eq (dictionary?_eq_some_iff.2 ⟨t.rows[i].1, List.getElem?_eq_getElem hlt⟩)

theorem width_matrix (h : t.WellFormed) : t.matrix.width = t.index.events.length := by
  rw [TransitionMatrix.width, h.matrix_rows]
  cases hrows : t.rows with
  | nil =>
      -- Without states there is no event either.
      simp [index, Index.ofTable, namedEntries, hrows]
  | cons row rows => simp [TransitionMatrix.rowOf]

theorem countP_isEmpty (h : t.WellFormed) :
    (t.rows.map Prod.snd).countP Dictionary.isEmpty =
      (List.range t.size).countP fun i => t.outDegree i = 0 := by
  have hempty : ∀ d : Dictionary, d.isEmpty = decide (d.size = 0) := by
    rintro ⟨entries⟩
    cases entries <;> simp [Dictionary.isEmpty, Dictionary.size]
  have hdegrees := congrArg (List.countP fun degree => decide (degree = 0)) h.map_outDegree
  rw [List.countP_map, List.countP_map] at hdegrees
  exact (List.countP_congr fun d _ => by rw [hempty d]; rfl).trans hdegrees.symm

theorem mem_degrees_iff (h : t.WellFormed) {degree : Nat} :
    degree ∈ (t.rows.map Prod.snd).map Dictionary.size ↔
      ∃ i, i < t.size ∧ t.outDegree i = degree := by
  rw [← h.map_outDegree]
  simp

end WellFormed

theorem hasDefaultAt_iff {t : Table} {i : Nat} :
    t.hasDefaultAt i = true ↔ ∃ d, t.dictionary? i = some d ∧ d.default?.isSome = true := by
  rw [hasDefaultAt]
  cases t.dictionary? i <;> simp

theorem hasDefault_iff (t : Table) :
    (Stats.ofTable t).hasDefault = true ↔ ∃ i, t.hasDefaultAt i = true := by
  simp only [Stats.ofTable, List.any_map, List.any_eq_true, List.mem_iff_getElem?,
    hasDefaultAt_iff, dictionary?_eq_some_iff]
  constructor
  · rintro ⟨⟨state, d⟩, ⟨i, hrow⟩, hdefault⟩
    exact ⟨i, d, ⟨state, hrow⟩, hdefault⟩
  · rintro ⟨i, d, ⟨state, hrow⟩, hdefault⟩
    exact ⟨(state, d), ⟨i, hrow⟩, hdefault⟩

/-- The statistics of a built table are those of its matrix, with the default entries counted in:
the states are its rows and the events its columns, and the degrees are the numbers of set cells,
one more where there is a default entry.  Counting on one walk gives the same numbers, and the bound
from which the smallest degree is looked for never shows. -/
theorem stats_agree_with_matrix {lines : List Line} {t : Table} (hbuild : build lines = .ok t) :
    let stats := Stats.ofTable t
    (stats.states = t.index.states.length ∧ stats.states = t.matrix.size) ∧
    (stats.events = t.index.events.length ∧ stats.events = t.matrix.width) ∧
    (stats.hasDefault = true ↔ ∃ i, t.hasDefaultAt i = true) ∧
    stats.terminalStates = ((List.range t.size).countP fun i => t.outDegree i = 0) ∧
    (∀ i, i < t.size → stats.minOutDegree ≤ t.outDegree i ∧ t.outDegree i ≤ stats.maxOutDegree) ∧
    (0 < t.size → (∃ i, i < t.size ∧ t.outDegree i = stats.minOutDegree) ∧
      ∃ i, i < t.size ∧ t.outDegree i = stats.maxOutDegree) ∧
    (t.size = 0 → stats.minOutDegree = 0 ∧ stats.maxOutDegree = 0) ∧
    ∀ bound, (∀ i, i < t.size → t.outDegree i ≤ bound) → Stats.counted bound t = stats := by
  intro stats
  have h := wellFormed_of_build hbuild
  have hstates : stats.states = t.index.states.length := by
    rw [h.index_states, t.length_states]
    rfl
  have hdegree : ∀ i, i < t.size → t.outDegree i ∈ (t.rows.map Prod.snd).map Dictionary.size :=
    fun i hi => h.mem_degrees_iff.2 ⟨i, hi, rfl⟩
  refine ⟨⟨hstates, ?_⟩, ⟨rfl, h.width_matrix.symm⟩, hasDefault_iff t, h.countP_isEmpty,
    fun i hi => ⟨List.min?_getD_le_of_mem (hdegree i hi), List.le_max?_getD_of_mem (hdegree i hi)⟩,
    ?_, ?_, ?_⟩
  · rw [hstates]
    simp [matrix, TransitionMatrix.ofTable, TransitionMatrix.size]
  · intro hsize
    have hne : (t.rows.map Prod.snd).map Dictionary.size ≠ [] :=
      List.ne_nil_of_mem (hdegree 0 hsize)
    constructor
    · apply h.mem_degrees_iff.1
      simp only [stats, Stats.ofTable, List.min?_eq_some_min hne, Option.getD_some]
      exact List.min_mem hne
    · apply h.mem_degrees_iff.1
      simp only [stats, Stats.ofTable, List.max?_eq_some_max hne, Option.getD_some]
      exact List.max_mem hne
  · intro hsize
    have hrows : t.rows = [] := List.eq_nil_of_length_eq_zero hsize
    simp [stats, Stats.ofTable, hrows]
  · intro bound hbound
    apply Stats.counted_eq_ofTable
    intro row hrow
    obtain ⟨i, hi, hsize⟩ :=
      h.mem_degrees_iff.1 (List.mem_map_of_mem (List.mem_map_of_mem hrow))
    rw [← hsize]
    exact hbound i hi

/-- One state has a default entry beside a named one, one has nothing, and a callable of the same
name as another one takes its place. -/
theorem stats_agree_with_matrix_of_go :
    ∃ t, build [⟨1, ⟨true, false⟩, .text "A", .text "B", some (.behavior ⟨0, "go"⟩)⟩,
        ⟨2, ⟨true, false⟩, .text "A", .text "C", some (.behavior ⟨1, "go"⟩)⟩,
        ⟨3, ⟨true, false⟩, .text "A", .text "A", none⟩,
        ⟨4, ⟨true, false⟩, .text "B", .text "A", none⟩] = .ok t ∧
      t.matrix = ⟨[[some 2], [none], [none]]⟩ ∧
      (List.range t.size).map t.outDegree = [2, 1, 0] ∧
      Stats.ofTable t = ⟨1, true, 3, 1, 2, 0⟩ ∧ Stats.counted 2 t = Stats.ofTable t ∧
      (∃ i, i < t.size ∧ t.outDegree i = (Stats.ofTable t).maxOutDegree) := by
  refine ⟨_, rfl, by decide, by decide, by decide, ?_⟩
  obtain ⟨-, -, -, -, -, hreached, -, hcounted⟩ := stats_agree_with_matrix
    (show build [⟨1, ⟨true, false⟩, .text "A", .text "B", some (.behavior ⟨0, "go"⟩)⟩,
        ⟨2, ⟨true, false⟩, .text "A", .text "C", some (.behavior ⟨1, "go"⟩)⟩,
        ⟨3, ⟨true, false⟩, .text "A", .text "A", none⟩,
        ⟨4, ⟨true, false⟩, .text "B", .text "A", none⟩] = .ok _ from rfl)
  exact ⟨hcounted 2 (by decide), (hreached (by decide)).2⟩

end Table

end StateDiagram
