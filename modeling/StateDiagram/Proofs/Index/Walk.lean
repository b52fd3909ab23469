import StateDiagram.Proofs.Table.Positioned

/-!
# Indices made on one walk

A walk over a table numbers the states and the events as it meets them, each in an enumeration of
its own, and does not look at the positions that the table has given to its states.  The numbers of
the states come out as their positions all the same.  An event is numbered once, at the first entry
that it gates, and identifiers are told apart by what they are and not by their labels.
-/

namespace StateDiagram

/-! ## What is met first -/

/-- The list holds what is met, each identifier once and in the order in which they are met first.
-/
structure FirstMet (met idents : List Ident) : Prop where
  mem_iff : ∀ ident, ident ∈ idents ↔ ident ∈ met
  ordered : idents.Pairwise fun ident later => met.idxOf ident < met.idxOf later

theorem firstMet_iff {met idents : List Ident} :
    FirstMet met idents ↔ idents = met.eraseDups := by
  constructor
  · intro h
    apply Assoc.eq_of_pairwise_of_mem_iff (fun _ _ => Nat.lt_asymm) h.ordered
      (Assoc.pairwise_idxOf_eraseDups met)
    intro ident
    rw [h.mem_iff, List.mem_eraseDups]
  · rintro rfl
    exact ⟨fun _ => List.mem_eraseDups, Assoc.pairwise_idxOf_eraseDups met⟩

/-! ## What is told apart -/

/-- Numbers for identifiers as such, whatever their labels.  One scalar has one number wherever it
stands, and neither two callables nor the two roles of one callable share a number. -/
structure TellsApart (number? : Ident → Option Nat) : Prop where
  eq_iff : ∀ {a b i}, number? a = some i → (number? b = some i ↔ a = b)
  scalar_iff : ∀ {s s' i}, number? (.scalar s) = some i →
    (number? (.scalar s') = some i ↔ s = s')
  key_eq : ∀ {a b f g i}, a.callable? = some f → b.callable? = some g →
    number? a = some i → number? b = some i → f.key = g.key
  role_eq : ∀ {f g i}, number? (.behavior f) = some i → number? (.constructor g) ≠ some i

theorem tellsApart_of_inj {number? : Ident → Option Nat}
    (h : ∀ {a b i}, number? a = some i → number? b = some i → a = b) : TellsApart number? where
  eq_iff := by
    intro a b i ha
    constructor
    · exact h ha
    · rintro rfl
      exact ha
  scalar_iff := by
    intro s s' i hs
    constructor
    · intro hs'
      exact Ident.scalar.inj (h hs hs')
    · rintro rfl
      exact hs
  key_eq := by
    intro a b f g i hf hg ha hb
    obtain rfl := h ha hb
    rw [Option.some.inj (hf.symm.trans hg)]
  role_eq := by
    intro f g i hf hg
    have hsame := h hf hg
    contradiction

/-! ## The walk -/

structure IndexWalk where
  states : Enumeration
  events : Enumeration
  deriving DecidableEq

namespace IndexWalk

/-- Numbers the state of a row and then the events that gate its entries. -/
def visit (walk : IndexWalk) (row : Ident × Dictionary) : IndexWalk :=
  ⟨walk.states.add row.1, row.2.gates.foldl .add walk.events⟩

def ofTable (t : Table) : IndexWalk := t.rows.foldl visit ⟨.empty, .empty⟩

/-- The enumerations are those of the index: their lists are the same, and what they keep in their
maps is what the index looks for in its lists. -/
structure Makes (walk : IndexWalk) (index : Index) : Prop where
  states_eq : walk.states.idents = index.states
  events_eq : walk.events.idents = index.events
  stateIndex?_eq : ∀ state, walk.states.place? state = index.stateIndex? state
  eventIndex?_eq : ∀ event, walk.events.place? event = index.eventIndex? event

theorem foldl_visit (walk : IndexWalk) (rows : List (Ident × Dictionary)) :
    rows.foldl visit walk =
      ⟨(rows.map Prod.fst).foldl .add walk.states,
        ((rows.map Prod.snd).flatMap Dictionary.gates).foldl .add walk.events⟩ := by
  induction rows generalizing walk with
  | nil => rfl
  | cons row rows ih =>
      rw [List.foldl_cons, ih]
      simp [visit, List.foldl_append]

theorem ofTable_eq (t : Table) : ofTable t = ⟨.ofList t.states, .ofList t.gates⟩ :=
  foldl_visit _ t.rows

theorem makes_ofTable (t : Table) : (ofTable t).Makes t.index := by
  have hevents : (Enumeration.ofList t.gates).idents = t.index.events := by
    rw [Enumeration.idents_ofList, t.gates_eq]
    rfl
  have hstates : (Enumeration.ofList t.states).idents = t.index.states :=
    Enumeration.idents_ofList t.states
  rw [ofTable_eq]
  refine ⟨hstates, hevents, ?_, ?_⟩
  · intro state
    rw [(Enumeration.inverse_ofList t.states).place?_eq, hstates]
    rfl
  · intro event
    rw [(Enumeration.inverse_ofList t.gates).place?_eq, hevents]
    rfl

end IndexWalk

namespace Table

theorem WellFormed.enumeration_eq {t : Table} (h : t.WellFormed) {p : PositionedTable}
    (htracks : p.Tracks t) : (IndexWalk.ofTable t).states = p.enumeration := by
  obtain ⟨rfl, hinverse⟩ := htracks
  rw [IndexWalk.ofTable_eq]
  apply (Enumeration.inverse_ofList _).eq_of_idents_eq hinverse
  rw [Enumeration.idents_ofList, Assoc.eraseDups_of_nodup h.states_nodup]
  rfl

theorem WellFormed.stateIndex?_eq_some_iff {t : Table} (h : t.WellFormed) {state : Ident}
    {i : Nat} : t.index.stateIndex? state = some i ↔ t.index.state? i = some state := by
  rw [h.stateIndex?_eq, h.position?_eq_some_iff, Index.state?, h.index_states, state?]

/-- The index of a built table numbers the states by their positions in the table and the events by
the order in which a walk over the named entries meets them first.  Every event of a named entry
has one number and nothing else has one, and numbers and identifiers are inverse to each other.
The walk that keeps a map for each of the two numberings makes this index, and its map of states is
the map of positions that the table can keep. -/
theorem index_aligned {lines : List Line} {t : Table} (hbuild : build lines = .ok t) :
    (∀ state, t.index.stateIndex? state = t.position? state) ∧
    (∀ state, t.index.stateIndex? state = none ↔ state ∉ t.states) ∧
    (∀ i, t.index.state? i = t.state? i) ∧
    (∀ state i, t.index.stateIndex? state = some i ↔ t.index.state? i = some state) ∧
    (∀ events, FirstMet t.gates events ↔ events = t.index.events) ∧
    t.index.events.Nodup ∧
    (∀ event, event ∈ t.index.events ↔
      ∃ row ∈ t.rows, ∃ key entry, (key, entry) ∈ row.2.named ∧ entry.event = some event) ∧
    (∀ event j, t.index.eventIndex? event = some j ↔ t.index.event? j = some event) ∧
    TellsApart t.index.stateIndex? ∧ TellsApart t.index.eventIndex? ∧
    (IndexWalk.ofTable t).Makes t.index ∧
    ∃ p, PositionedTable.build lines = .ok p ∧ p.toTable = t ∧
      (IndexWalk.ofTable t).states = p.enumeration := by
  have h := wellFormed_of_build hbuild
  obtain ⟨p, hpositioned, htracks⟩ := PositionedTable.exists_of_build hbuild
  refine ⟨h.stateIndex?_eq, ?_, ?_, fun _ _ => h.stateIndex?_eq_some_iff, ?_, t.events_nodup,
    fun _ => mem_index_events_iff_gates.trans mem_gates, fun _ _ => eventIndex?_eq_some_iff,
    ?_, ?_, IndexWalk.makes_ofTable t, p, hpositioned, htracks.toTable_eq,
    h.enumeration_eq htracks⟩
  · intro state
    rw [Index.stateIndex?, h.index_states, List.idxOf?_eq_none_iff]
  · intro i
    rw [Index.state?, h.index_states, state?]
  · intro events
    rw [firstMet_iff, t.gates_eq]
    rfl
  · apply tellsApart_of_inj
    intro a b i ha hb
    rw [h.stateIndex?_eq_some_iff] at ha hb
    exact Option.some.inj (ha.symm.trans hb)
  · apply tellsApart_of_inj
    intro a b j ha hb
    rw [eventIndex?_eq_some_iff] at ha hb
    exact Option.some.inj (ha.symm.trans hb)

/-- A number and its text, the two roles of one callable and another callable of its name are events
beside each other, the number at two states, and one event is overridden by another of its label. -/
theorem index_aligned_of_go :
    let go : Callable := ⟨0, "go"⟩
    let lines : List Line :=
      [⟨1, ⟨true, false⟩, .text "A", .text "B", some (.number 7)⟩,
        ⟨2, ⟨true, false⟩, .text "B", .text "A", some (.text "7")⟩,
        ⟨3, ⟨true, true⟩, .text "B", .text "B", some (.behavior go)⟩,
        ⟨4, ⟨true, false⟩, .text "A", .text "A", some (.behavior ⟨2, "lost"⟩)⟩,
        ⟨5, ⟨true, false⟩, .text "A", .text "A", some (.constructor go)⟩,
        ⟨6, ⟨false, true⟩, .text "A", .text "C", some (.behavior ⟨1, "go"⟩)⟩,
        ⟨7, ⟨true, false⟩, .text "A", .text "C", some (.text "lost")⟩,
        ⟨8, ⟨true, false⟩, .text "C", .text "B", some (.number 7)⟩]
    let events : List Ident :=
      [.number 7, .text "lost", .constructor go, .text "7", .behavior go, .behavior ⟨1, "go"⟩]
    ∃ t, build lines = .ok t ∧ t.index = ⟨[.text "A", .text "B", .text "C"], events⟩ ∧
      FirstMet t.gates events ∧
      t.index.stateIndex? (.text "C") = t.position? (.text "C") ∧
      t.index.eventIndex? (.behavior go) = some 4 ∧
      t.index.eventIndex? (.constructor go) ≠ some 4 ∧
      (IndexWalk.ofTable t).events.place? (.number 7) = t.index.eventIndex? (.number 7) := by
  intro go lines events
  obtain ⟨t, hbuild⟩ : ∃ t, build lines = .ok t := ⟨_, rfl⟩
  obtain ⟨hposition, -, -, -, hfirst, -, -, hinverse, -, hevents, hmakes, -⟩ :=
    index_aligned hbuild
  have hindex : t.index = ⟨[.text "A", .text "B", .text "C"], events⟩ := by
    obtain rfl : _ = t := Except.ok.inj hbuild
    decide +kernel
  have hgo : t.index.eventIndex? (.behavior go) = some 4 := by
    rw [hinverse, hindex]
    rfl
  have hlist : events = t.index.events := by rw [hindex]
  exact ⟨t, hbuild, hindex, (hfirst events).2 hlist, hposition _, hgo, hevents.role_eq hgo,
    hmakes.eventIndex?_eq _⟩

end Table

end StateDiagram
