import StateDiagram.Proofs.Table.WellFormed
import StateDiagram.Index
import StateDiagram.TransitionMatrix

/-!
# Indices of a well-formed table

States are numbered by their positions in the table, and every event of an entry has a number of
its own.
-/

namespace StateDiagram

theorem idxOf?_eq_some_iff_getElem? {α : Type} [DecidableEq α] {l : List α} (h : l.Nodup)
    {a : α} {i : Nat} : l.idxOf? a = some i ↔ l[i]? = some a := by
  rw [List.idxOf?_eq_some_iff, List.getElem?_eq_some_iff]
  constructor
  · rintro ⟨hi, ha, -⟩
    exact ⟨hi, ha⟩
  · rintro ⟨hi, ha⟩
    refine ⟨hi, ha, ?_⟩
    intro j hj heq
    have hsame : j = i := (List.getElem_inj h).1 (heq.trans ha.symm)
    omega

theorem idxOf?_map {α β : Type} [DecidableEq α] [DecidableEq β] {f : α → β} {l : List α} {a : α}
    (h : Set.InjOn f {b | b = a ∨ b ∈ l}) : (l.map f).idxOf? (f a) = l.idxOf? a := by
  have heq : ∀ i (hi : i < l.length), f l[i] = f a ↔ l[i] = a :=
    fun i hi => h.eq_iff (.inr (List.getElem_mem hi)) (.inl rfl)
  apply Option.ext
  intro i
  simp only [List.idxOf?_eq_some_iff, List.length_map, List.getElem_map]
  refine exists_congr fun hi => and_congr (heq i hi) ?_
  exact forall_congr' fun j => forall_congr' fun hj => not_congr (heq j (hj.trans hi))

/-- The events that gate the entries, in the order of the entries. -/
def Dictionary.gates (d : Dictionary) : List Ident :=
  (d.named.map Prod.snd).filterMap Entry.event

namespace Table

/-- The gates of all states, in the order of the states. -/
def gates (t : Table) : List Ident := (t.rows.map Prod.snd).flatMap Dictionary.gates

theorem gates_eq (t : Table) : t.gates = t.namedEntries.filterMap Entry.event := by
  rw [gates, namedEntries, List.filterMap_flatMap, List.flatMap_map]
  rfl

theorem mem_gates {t : Table} {event : Ident} :
    event ∈ t.gates ↔
      ∃ row ∈ t.rows, ∃ key entry, (key, entry) ∈ row.2.named ∧ entry.event = some event := by
  simp [gates, Dictionary.gates, List.flatMap_map]

theorem mem_index_events_iff_gates {t : Table} {event : Ident} :
    event ∈ t.index.events ↔ event ∈ t.gates := by
  rw [index, Index.ofTable, List.mem_eraseDups, gates_eq]

theorem events_nodup (t : Table) : t.index.events.Nodup := Assoc.nodup_eraseDups _

theorem eventIndex?_eq_some_iff {t : Table} {event : Ident} {j : Nat} :
    t.index.eventIndex? event = some j ↔ t.index.event? j = some event :=
  idxOf?_eq_some_iff_getElem? t.events_nodup

theorem state?_eq_some_iff {t : Table} {i : Nat} {state : Ident} :
    t.state? i = some state ↔ ∃ d, t.rows[i]? = some (state, d) := by
  simp [state?, states]

theorem dictionary?_eq_some_iff {t : Table} {i : Nat} {d : Dictionary} :
    t.dictionary? i = some d ↔ ∃ state, t.rows[i]? = some (state, d) := by
  simp [dictionary?]

namespace WellFormed

variable {t : Table}

theorem index_states (h : t.WellFormed) : t.index.states = t.states :=
  Assoc.eraseDups_of_nodup h.states_nodup

theorem stateIndex?_eq (h : t.WellFormed) (state : Ident) :
    t.index.stateIndex? state = t.position? state := by
  rw [Index.stateIndex?, h.index_states, position?]

theorem position?_eq_some_iff (h : t.WellFormed) {state : Ident} {i : Nat} :
    t.position? state = some i ↔ t.state? i = some state :=
  idxOf?_eq_some_iff_getElem? h.states_nodup

theorem get?_eq_some_iff (h : t.WellFormed) {state : Ident} {d : Dictionary} :
    t.get? state = some d ↔ (state, d) ∈ t.rows :=
  Assoc.lookup_eq_some_iff_mem h.states_nodup

theorem dictionary?_eq_get? (h : t.WellFormed) {state : Ident} {i : Nat}
    (hstate : t.state? i = some state) : t.dictionary? i = t.get? state := by
  obtain ⟨d, hrow⟩ := state?_eq_some_iff.1 hstate
  rw [dictionary?_eq_some_iff.2 ⟨state, hrow⟩,
    h.get?_eq_some_iff.2 (List.mem_of_getElem? hrow)]

theorem exists_position?_next (h : t.WellFormed) {i : Nat} {d : Dictionary}
    (hd : t.dictionary? i = some d) {key : String} {entry : Entry}
    (hentry : (key, entry) ∈ d.entries) :
    ∃ n, t.position? entry.next = some n ∧ n < t.size := by
  obtain ⟨state, hrow⟩ := dictionary?_eq_some_iff.1 hd
  have hnext := h.next_mem _ (List.mem_of_getElem? hrow) hentry
  obtain ⟨n, hn⟩ := Option.isSome_iff_exists.1 (List.isSome_idxOf?.2 hnext)
  refine ⟨n, hn, ?_⟩
  obtain ⟨hlt, -⟩ := List.idxOf?_eq_some_iff.1 hn
  simpa using hlt

theorem mem_index_events (h : t.WellFormed) {event : Ident} :
    event ∈ t.index.events ↔
      ∃ row ∈ t.rows, ∃ key entry, (key, entry) ∈ row.2.entries ∧ entry.event = some event := by
  rw [mem_index_events_iff_gates, mem_gates]
  refine exists_congr fun row => and_congr_right fun hrow => ?_
  refine exists_congr fun key => exists_congr fun entry => and_congr_left fun hevent => ?_
  rw [(h.dictionary row hrow).mem_named_iff]
  exact and_iff_left ⟨event, hevent⟩

theorem label_ne_of_mem_events (h : t.WellFormed) {event : Ident}
    (hevent : event ∈ t.index.events) : event.label ≠ defaultKey := by
  obtain ⟨row, hrow, key, entry, hentry, he⟩ := h.mem_index_events.1 hevent
  exact ((h.dictionary row hrow).key_eq_label hentry he).2

end WellFormed

end Table

end StateDiagram
