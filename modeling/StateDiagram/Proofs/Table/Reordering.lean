import StateDiagram.Proofs.Matrix
import StateDiagram.Stats

/-!
# Reordered diagrams

Lines may change places as long as those that leave one state keep their order.  The table then has
the same rows in another order.  All that is counted over the rows stays the same, and the matrix
stays the same up to the numbers of states and events.
-/

namespace StateDiagram

/-! ## Lines -/

namespace Line

/-- The state is the source of one of the directions of the line. -/
def hasSource (line : Line) (state : Ident) : Bool := line.moves.any fun move => move.1 = state

/-- The lines change places, but those that have a common source keep their order. -/
structure Reordered (lines again : List Line) : Prop where
  perm : lines.Perm again
  order : ∀ state, lines.filter (·.hasSource state) = again.filter (·.hasSource state)

theorem entryFrom?_of_hasSource {line : Line} {state : Ident} (h : line.hasSource state = false) :
    line.entryFrom? state = none := by
  rw [entryFrom?, Option.map_eq_none_iff, Option.eq_none_iff_forall_ne_some]
  intro next htarget
  have hmove := mem_moves_iff.2 htarget
  exact List.any_eq_false.1 h _ hmove (by simp)

theorem filterMap_entryFrom?_filter (lines : List Line) (state : Ident) :
    (lines.filter (·.hasSource state)).filterMap (·.entryFrom? state) =
      lines.filterMap (·.entryFrom? state) := by
  rw [List.filterMap_filter]
  apply List.filterMap_congr
  intro line _
  cases h : line.hasSource state with
  | true => rw [if_pos rfl]
  | false => rw [if_neg Bool.false_ne_true, entryFrom?_of_hasSource h]

end Line

/-! ## Tables of the same rows -/

namespace Table

/-- Two well-formed tables of the same rows, in whatever order. -/
structure Similar (t other : Table) : Prop where
  wellFormed : t.WellFormed
  wellFormed_other : other.WellFormed
  rows_perm : t.rows.Perm other.rows

theorem similar_of_reordered {lines again : List Line} (h : Line.Reordered lines again)
    (hlines : ∀ line ∈ lines, line.isAnonymous = false) :
    (described lines).Similar (described again) where
  wellFormed := wellFormed_described hlines
  wellFormed_other := wellFormed_described fun line hline => hlines line (h.perm.mem_iff.2 hline)
  rows_perm := by
    have hdictionary : ∀ state, lines.filterMap (·.entryFrom? state) =
        again.filterMap (·.entryFrom? state) := by
      intro state
      rw [← Line.filterMap_entryFrom?_filter lines, h.order,
        Line.filterMap_entryFrom?_filter again]
    simp only [described, tabulate, hdictionary]
    exact (Assoc.eraseDups_perm (h.perm.flatMap_right Line.ends)).map _

namespace Similar

variable {t other : Table}

theorem states_perm (h : t.Similar other) : t.states.Perm other.states := h.rows_perm.map Prod.fst

theorem get?_eq (h : t.Similar other) (state : Ident) : t.get? state = other.get? state := by
  apply Option.ext
  intro d
  rw [h.wellFormed.get?_eq_some_iff, h.wellFormed_other.get?_eq_some_iff, h.rows_perm.mem_iff]

theorem position?_isSome_eq (h : t.Similar other) (state : Ident) :
    (t.position? state).isSome = (other.position? state).isSome := by
  rw [Bool.eq_iff_iff, position?, position?, List.isSome_idxOf?, List.isSome_idxOf?,
    h.states_perm.mem_iff]

theorem events_perm (h : t.Similar other) : t.index.events.Perm other.index.events :=
  Assoc.eraseDups_perm ((h.rows_perm.flatMap_right _).filterMap Entry.event)

/-! ## Statistics -/

theorem stats_eq (h : t.Similar other) : Stats.ofTable t = Stats.ofTable other := by
  have hdictionaries := h.rows_perm.map Prod.snd
  have hdegrees := hdictionaries.map Dictionary.size
  have hmax : ((t.rows.map Prod.snd).map Dictionary.size).max? =
      ((other.rows.map Prod.snd).map Dictionary.size).max? := by
    apply Option.ext
    intro degree
    simp only [List.max?_eq_some_iff, hdegrees.mem_iff]
  have hmin : ((t.rows.map Prod.snd).map Dictionary.size).min? =
      ((other.rows.map Prod.snd).map Dictionary.size).min? := by
    apply Option.ext
    intro degree
    simp only [List.min?_eq_some_iff, hdegrees.mem_iff]
  have hevents := h.events_perm.length_eq
  simp only [index, Index.ofTable] at hevents
  rw [Stats.ofTable, Stats.ofTable]
  simp only [hmax, hmin, hevents, hdictionaries.any_eq, hdictionaries.countP_eq, size,
    h.rows_perm.length_eq]

end Similar

/-! ## Matrices -/

/-- The other table has the same matrix, with rows, columns and cells under the numbers that its own
index table gives to the states and events. -/
structure Renumbers (t other : Table) : Prop where
  states_perm : t.index.states.Perm other.index.states
  events_perm : t.index.events.Perm other.index.events
  cell_eq : ∀ {state event : Ident} {i j i' j' : Nat},
    t.index.stateIndex? state = some i → t.index.eventIndex? event = some j →
    other.index.stateIndex? state = some i' → other.index.eventIndex? event = some j' →
    (t.matrix.get? i j).map t.index.state? = (other.matrix.get? i' j').map other.index.state?

theorem WellFormed.map_get?_matrix {t : Table} (h : t.WellFormed) {state event : Ident}
    {i j : Nat} (hi : t.index.stateIndex? state = some i)
    (hj : t.index.eventIndex? event = some j) :
    (t.matrix.get? i j).map t.index.state? =
      (((t.get? state).bind (·.get? event.label)).filter fun entry => entry.event = some event).map
        fun entry => some entry.next := by
  rw [h.stateIndex?_eq, h.position?_eq_some_iff] at hi
  obtain ⟨d, hrow⟩ := state?_eq_some_iff.1 hi
  have hd : t.dictionary? i = some d := dictionary?_eq_some_iff.2 ⟨state, hrow⟩
  have hcell : ∀ n, t.matrix.get? i j = some n ↔ _ := fun _ =>
    h.get?_matrix_eq_some_iff hd (eventIndex?_eq_some_iff.1 hj)
  have hnext : ∀ {entry : Entry} {n : Nat}, t.position? entry.next = some n →
      t.index.state? n = some entry.next := by
    intro entry n hn
    rw [Index.state?, h.index_states]
    exact h.position?_eq_some_iff.1 hn
  rw [← h.dictionary?_eq_get? hi, hd, Option.bind_some]
  apply Option.ext
  intro found
  simp only [Option.map_eq_some_iff, hcell, Option.filter_eq_some_iff, decide_eq_true_eq]
  constructor
  · rintro ⟨n, ⟨entry, hget, hevent, hn⟩, rfl⟩
    exact ⟨entry, ⟨hget, hevent⟩, (hnext hn).symm⟩
  · rintro ⟨entry, ⟨hget, hevent⟩, rfl⟩
    have hentry := (h.dictionary _ (List.mem_of_getElem? hrow)).get?_eq_some_iff.1 hget
    obtain ⟨n, hn, -⟩ := h.exists_position?_next hd hentry
    exact ⟨n, ⟨entry, hget, hevent, hn⟩, hnext hn⟩

theorem Similar.renumbers {t other : Table} (h : t.Similar other) : t.Renumbers other where
  states_perm := by
    rw [h.wellFormed.index_states, h.wellFormed_other.index_states]
    exact h.states_perm
  events_perm := h.events_perm
  cell_eq := by
    intro state event i j i' j' hi hj hi' hj'
    rw [h.wellFormed.map_get?_matrix hi hj, h.wellFormed_other.map_get?_matrix hi' hj', h.get?_eq]

end Table

end StateDiagram
