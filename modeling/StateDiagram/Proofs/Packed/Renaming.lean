import StateDiagram.Packed.Pack
import StateDiagram.Proofs.Matrix
import StateDiagram.Proofs.Table.Renaming
import StateDiagram.Stats

/-!
# What a renaming leaves alone

States and events keep their numbers when a diagram is renamed.  So the matrix is the same to the
cell, and with it the statistics, the buffer of the packed table and the places of its rows.
-/

namespace StateDiagram

variable {ρ : Ident → Ident}

/-! ## Numbers of states and events -/

namespace Table

variable {t : Table}

theorem events_subset (hw : t.WellFormed) {row : Ident × Dictionary} (hrow : row ∈ t.rows) :
    row.2.events ⊆ t.index.events := by
  intro event hevent
  obtain ⟨⟨key, entry⟩, hmem, hsome⟩ := List.mem_filterMap.1 hevent
  exact hw.mem_index_events.2 ⟨row, hrow, key, entry, hmem, hsome⟩

theorem namedEntries_rename (hw : t.WellFormed)
    (h : Ident.Faithful ρ t.states t.index.events) :
    (t.rename ρ).namedEntries = t.namedEntries.map (Entry.rename ρ) := by
  simp only [namedEntries, rename, List.flatMap_map, List.map_flatMap]
  rw [List.flatMap_def, List.flatMap_def]
  congr 1
  apply List.map_congr_left
  intro row hrow
  rw [Prod.map_snd, Dictionary.named_rename (hw.dictionary row hrow) h (events_subset hw hrow)]
  simp [Function.comp_def]

theorem index_rename (hw : t.WellFormed) (h : Ident.Faithful ρ t.states t.index.events) :
    (t.rename ρ).index = ⟨t.index.states.map ρ, t.index.events.map ρ⟩ := by
  have hevents : (t.rename ρ).namedEntries.filterMap Entry.event =
      (t.namedEntries.filterMap Entry.event).map ρ := by
    rw [namedEntries_rename hw h, List.filterMap_map, List.map_filterMap]
    rfl
  have hdups := Assoc.eraseDups_map (h.injOn_events.mono fun event hevent =>
    (List.mem_eraseDups.2 hevent : event ∈ (t.namedEntries.filterMap Entry.event).eraseDups))
  simp only [index, Index.ofTable, states_rename, hevents, hdups,
    Assoc.eraseDups_map h.injOn_states]

/-! ## The matrix -/

theorem cell?_rename (hw : t.WellFormed) (h : Ident.Faithful ρ t.states t.index.events)
    {row : Ident × Dictionary} (hrow : row ∈ t.rows) {event : Ident}
    (hevent : event ∈ t.index.events) :
    TransitionMatrix.cell? (t.rename ρ).index (row.2.rename ρ) (ρ event) =
      TransitionMatrix.cell? t.index row.2 event := by
  have hwell := hw.dictionary row hrow
  have hevents := events_subset hw hrow
  have hgates : ∀ named ∈ row.2.named,
      (named.2.event.map ρ = some (ρ event) ↔ named.2.event = some event) := by
    intro named hnamed
    have hmem := (hwell.mem_named_iff.1 hnamed).1
    cases hfrom : named.2.event with
    | none => simp
    | some other =>
        simp only [Option.map_some, Option.some.injEq]
        exact h.injOn_events.eq_iff (Dictionary.event_mem hevents hmem other hfrom) hevent
  have hfind : (row.2.rename ρ).named.find? (fun named => named.2.event = some (ρ event)) =
      (row.2.named.find? fun named => named.2.event = some event).map
        (Prod.map (Ident.relabel ρ t.index.events) (Entry.rename ρ)) := by
    rw [Dictionary.named_rename hwell h hevents, List.find?_map]
    congr 1
    apply List.find?_congr
    intro named hnamed
    simp [hgates named hnamed]
  rw [TransitionMatrix.cell?_eq, TransitionMatrix.cell?_eq, hfind, Option.bind_map]
  cases hfound : row.2.named.find? fun named => named.2.event = some event with
  | none => rfl
  | some named =>
      have hmem := (hwell.mem_named_iff.1 (List.mem_of_find?_eq_some hfound)).1
      have hnext := hw.next_mem row hrow hmem
      have hindex : Set.InjOn ρ {ident | ident = named.2.next ∨ ident ∈ t.index.states} := by
        refine h.injOn_states.mono ?_
        rintro ident (rfl | hident)
        · exact hnext
        · exact List.mem_eraseDups.1 hident
      rw [index_rename hw h]
      exact idxOf?_map hindex

theorem get?_rename (h : Set.InjOn ρ {ident | ident ∈ t.states}) {state : Ident}
    (hstate : state ∈ t.states) :
    (t.rename ρ).get? (ρ state) = (t.get? state).map (Dictionary.rename ρ) := by
  apply Assoc.lookup_map
  refine h.mono ?_
  rintro ident (rfl | hident)
  · exact hstate
  · exact hident

theorem rowOf_rename (hw : t.WellFormed) (h : Ident.Faithful ρ t.states t.index.events)
    {row : Ident × Dictionary} (hrow : row ∈ t.rows) :
    TransitionMatrix.rowOf (t.rename ρ).index (row.2.rename ρ) =
      TransitionMatrix.rowOf t.index row.2 := by
  have hevents : (t.rename ρ).index.events = t.index.events.map ρ := by rw [index_rename hw h]
  rw [TransitionMatrix.rowOf, TransitionMatrix.rowOf, hevents, List.map_map]
  apply List.map_congr_left
  intro event hevent
  exact cell?_rename hw h hrow hevent

theorem matrix_rename (hw : t.WellFormed) (h : Ident.Faithful ρ t.states t.index.events) :
    (t.rename ρ).matrix = t.matrix := by
  have hstates : (t.rename ρ).index.states = t.index.states.map ρ := by rw [index_rename hw h]
  rw [matrix, matrix, TransitionMatrix.ofTable, TransitionMatrix.ofTable, hstates, List.map_map,
    TransitionMatrix.mk.injEq]
  apply List.map_congr_left
  intro state hstate
  obtain ⟨⟨_, d⟩, hrow, rfl⟩ := List.mem_map.1 (List.mem_eraseDups.1 hstate)
  have hget := get?_rename h.injOn_states (List.mem_map_of_mem hrow)
  rw [hw.get?_eq_some_iff.2 hrow, Option.map_some] at hget
  rw [Function.comp_apply, hget, hw.get?_eq_some_iff.2 hrow, Option.getD_some, Option.getD_some]
  exact rowOf_rename hw h hrow

/-! ## Statistics -/

theorem any_default?_rename (hw : t.WellFormed)
    (h : Ident.Faithful ρ t.states t.index.events) :
    (t.rows.any fun row => (row.2.rename ρ).default?.isSome) =
      t.rows.any fun row => row.2.default?.isSome := by
  rw [Bool.eq_iff_iff, List.any_eq_true, List.any_eq_true]
  refine exists_congr fun row => and_congr_right fun hrow => ?_
  rw [Dictionary.default?_rename (hw.dictionary row hrow) h (events_subset hw hrow),
    Option.isSome_map]

theorem stats_rename (hw : t.WellFormed) (h : Ident.Faithful ρ t.states t.index.events) :
    Stats.ofTable (t.rename ρ) = Stats.ofTable t := by
  have hevents : (t.rename ρ).index.events.length = t.index.events.length := by
    rw [index_rename hw h, List.length_map]
  have hdictionaries : (t.rename ρ).rows.map Prod.snd =
      (t.rows.map Prod.snd).map (Dictionary.rename ρ) := by
    simp [rename, Function.comp_def]
  have hstates : (t.rename ρ).size = t.size := by simp [size, rename]
  have hsize : ∀ d : Dictionary, (d.rename ρ).size = d.size := by
    simp [Dictionary.size, Dictionary.rename]
  have hempty : ∀ d : Dictionary, (d.rename ρ).isEmpty = d.isEmpty := by
    simp [Dictionary.isEmpty, Dictionary.rename]
  rw [index, index, Index.ofTable, Index.ofTable] at hevents
  simp only [Stats.ofTable, hevents, hdictionaries, hstates, List.any_map, List.map_map,
    List.countP_map, Function.comp_def, hsize, hempty, any_default?_rename hw h]

end Table

/-! ## Packed tables -/

namespace PackedTable

/-- What the cells hold and where the rows went. -/
def content (p : PackedTable) : List UInt32 × List Nat := (p.buffer, p.legend.rowPositions)

theorem map_content_pack (options : PackOptions) (tokens tokens' : NameTokens)
    (m : TransitionMatrix) (index index' : Index) :
    (pack options tokens m index).map content = (pack options tokens' m index').map content := by
  rw [pack, pack]
  cases options.layout with
  | strided => rfl
  | fixedWidth =>
      cases packCells m.storedRows.flatten <;> rfl

end PackedTable

namespace Table

variable {lines : List Line} {t : Table}

theorem states_subset_of_build (hbuild : build lines = .ok t) :
    t.states ⊆ lines.flatMap Line.sides := by
  obtain ⟨-, rfl⟩ := build_eq_ok_iff.1 hbuild
  rw [described, states_tabulate]
  exact fun _ hstate => Line.flatMap_ends_subset lines (List.mem_eraseDups.1 hstate)

theorem index_events_subset_of_build (hbuild : build lines = .ok t) :
    t.index.events ⊆ lines.filterMap Line.event := by
  have hw := wellFormed_of_build hbuild
  obtain ⟨-, rfl⟩ := build_eq_ok_iff.1 hbuild
  intro event hevent
  obtain ⟨row, hrow, key, entry, hentry, hsome⟩ := hw.mem_index_events.1 hevent
  obtain ⟨state, -, rfl⟩ := List.mem_map.1 hrow
  exact Line.event_mem_of_mem_entries (Dictionary.mem_of_mem_described hentry) event hsome

/-- What things are called does not matter: a diagram renamed faithfully fails where it did before
or gives the renamed table, in which every trigger is answered as before, and the matrix, the
statistics and the content of the packed table are the same. -/
theorem build_rename
    (h : Ident.Faithful ρ (lines.flatMap Line.sides) (lines.filterMap Line.event)) :
    build (lines.map (Line.rename ρ)) = (build lines).map (rename ρ) ∧
      ∀ t, build lines = .ok t →
        (t.rename ρ).states = t.states.map ρ ∧
        (∀ row ∈ t.rows,
          (row.2.rename ρ).default? = row.2.default?.map (Entry.rename ρ) ∧
          ∀ event ∈ lines.filterMap Line.event,
            (row.2.rename ρ).get? (ρ event).label =
              (row.2.get? event.label).map (Entry.rename ρ)) ∧
        (t.rename ρ).matrix = t.matrix ∧
        Stats.ofTable (t.rename ρ) = Stats.ofTable t ∧
        ∀ options tokens tokens', ((t.rename ρ).pack options tokens').map PackedTable.content =
          (t.pack options tokens).map PackedTable.content := by
  refine ⟨build_map_rename h, ?_⟩
  intro t hbuild
  have hw := wellFormed_of_build hbuild
  have hevents := index_events_subset_of_build hbuild
  have hfaithful := h.mono (states_subset_of_build hbuild) hevents
  refine ⟨states_rename t, ?_, matrix_rename hw hfaithful, stats_rename hw hfaithful, ?_⟩
  · intro row hrow
    have hrows := List.Subset.trans (events_subset hw hrow) hevents
    exact ⟨Dictionary.default?_rename (hw.dictionary row hrow) h hrows, fun event =>
      Dictionary.get?_label_rename (hw.dictionary row hrow) h hrows⟩
  · intro options tokens tokens'
    rw [pack, pack, matrix_rename hw hfaithful]
    exact PackedTable.map_content_pack options tokens' tokens t.matrix _ _

/-- All states become callables without a name, and the events a number and a callable. -/
theorem build_rename_of_nameless :
    let ρ : Ident → Ident := fun ident => ([(.text "A", .behavior ⟨0, ""⟩),
      (.text "B", .constructor ⟨1, ""⟩), (.text "C", .constructor ⟨0, ""⟩),
      (.text "go", .number 7), (.text "stop", .behavior ⟨2, "halt"⟩)].lookup ident).getD ident
    let lines : List Line := [⟨1, ⟨true, false⟩, .text "A", .text "B", some (.text "go")⟩,
      ⟨2, ⟨true, true⟩, .text "B", .text "A", some (.text "stop")⟩,
      ⟨3, ⟨true, false⟩, .text "A", .text "C", none⟩]
    Ident.Faithful ρ (lines.flatMap Line.sides) (lines.filterMap Line.event) ∧
      ∃ t, build lines = .ok t ∧ build (lines.map (Line.rename ρ)) = .ok (t.rename ρ) ∧
        (t.rename ρ).states = [.behavior ⟨0, ""⟩, .constructor ⟨1, ""⟩, .constructor ⟨0, ""⟩] ∧
        (t.rename ρ).matrix = ⟨[[some 1, some 1], [none, some 0], [none, none]]⟩ ∧
        Stats.ofTable (t.rename ρ) = ⟨2, true, 3, 1, 3, 0⟩ ∧
        ∀ tokens, ((t.rename ρ).pack .standard tokens).map PackedTable.content =
          (t.pack .standard tokens).map PackedTable.content := by
  intro ρ lines
  have hinj : ∀ ident ∈ lines.flatMap Line.sides ++ lines.filterMap Line.event,
      ∀ other ∈ lines.flatMap Line.sides ++ lines.filterMap Line.event,
      ρ ident = ρ other → ident = other := by decide
  have hfaithful : Ident.Faithful ρ (lines.flatMap Line.sides) (lines.filterMap Line.event) :=
    ⟨fun ident hident other hother =>
      hinj ident (List.mem_append.2 hident) other (List.mem_append.2 hother),
      by decide +kernel, by decide +kernel⟩
  obtain ⟨hbuild, hsame⟩ := build_rename hfaithful
  obtain ⟨t, ht⟩ : ∃ t, build lines = .ok t := ⟨_, rfl⟩
  obtain ⟨hstates, -, hmatrix, hstats, hcontent⟩ := hsame t ht
  rw [ht] at hbuild
  obtain rfl : _ = t := Except.ok.inj ht
  exact ⟨hfaithful, _, rfl, hbuild, hstates.trans (by decide +kernel),
    hmatrix.trans (by decide +kernel), hstats.trans (by decide +kernel),
    fun tokens => hcontent .standard tokens tokens⟩

end Table

end StateDiagram
