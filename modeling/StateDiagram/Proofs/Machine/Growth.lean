import StateDiagram.Proofs.Machine.Reached

/-!
# Diagrams that grow

Lines that are added at the end of a diagram leave every state at its position.  They may change and
even remove the entries that a machine has taken, but a checkpoint records positions and one label,
and these stay as they were.
-/

namespace StateDiagram

/-! ## Tables -/

namespace Table

variable {lines more : List Line} {t whole : Table}

theorem states_described_append (lines more : List Line) :
    (described lines).states <+: (described (lines ++ more)).states := by
  simp only [described, states_tabulate, List.flatMap_append, List.eraseDups_append]
  exact List.prefix_append _ _

theorem exists_build_of_append (h : build (lines ++ more) = .ok whole) :
    ∃ t, build lines = .ok t ∧ t.states <+: whole.states := by
  obtain ⟨hlines, rfl⟩ := build_eq_ok_iff.1 h
  refine ⟨described lines, build_eq_ok_described ?_, states_described_append lines more⟩
  intro line hline
  exact hlines line (List.mem_append_left more hline)

theorem WellFormed.position?_of_isPrefix (h : t.WellFormed) (hwhole : whole.WellFormed)
    (hbegins : t.states <+: whole.states) {state : Ident} (hstate : state ∈ t.states) :
    whole.position? state = t.position? state := by
  obtain ⟨position, hposition⟩ := Option.isSome_iff_exists.1 (List.isSome_idxOf?.2 hstate)
  have hold : t.position? state = some position := hposition
  rw [hold, hwhole.position?_eq_some_iff]
  exact state?_of_isPrefix hbegins (h.position?_eq_some_iff.1 hold)

end Table

/-! ## Machines -/

namespace Machine

variable {t whole : Table} {m : Machine}

/-- The machine was started on the table or resumed there, from whatever checkpoint, and fired
since. -/
inductive Live (t : Table) : Machine → Prop where
  | started {m : Machine} {state : Ident} (h : ofStart t state = .ok m) : Live t m
  | resumed {m : Machine} {c : Checkpoint} (h : resume t c = .ok m) : Live t m
  | fired {m : Machine} (hm : Live t m) {σ : Type} (run : Behaviors σ) (trigger : String)
      (args : List Value) (now : Timestamp) (shared : σ) :
      Live t ((m.fire run trigger args now).run shared).1.2

theorem placed_of_resume {c : Checkpoint} (h : resume t c = .ok m) : m.Placed t := by
  obtain ⟨-, hsteps, hstart, state, hstate, -, rfl⟩ := resume_eq_ok_iff.1 h
  exact ⟨⟨rfl, hstate⟩, hstart, hsteps⟩

theorem Placed.advance (h : t.WellFormed) (hm : m.Placed t) {trigger : String} {now : Timestamp}
    {moved : Machine} {entry : Entry} (hadvance : m.advance trigger now = .ok (moved, entry)) :
    moved.Placed t := by
  obtain ⟨key, next, -, hposition, rfl⟩ := advance_eq_ok_iff.1 hadvance
  rw [hm.table_eq] at hposition
  have hstate := h.position?_eq_some_iff.1 hposition
  refine ⟨⟨hm.table_eq, hstate⟩, hm.start_lt, ?_⟩
  intro step hmem
  rcases List.mem_append.1 hmem with hold | hnew
  · exact hm.steps_lt step hold
  · rw [List.mem_singleton.1 hnew]
    exact ⟨Table.lt_size_of_state? hm.state?_current, Table.lt_size_of_state? hstate⟩

theorem Placed.fire {σ : Type} (h : t.WellFormed) (hm : m.Placed t) (run : Behaviors σ)
    (trigger : String) (args : List Value) (now : Timestamp) (shared : σ) :
    ((m.fire run trigger args now).run shared).1.2.Placed t := by
  cases hadvance : m.advance trigger now with
  | error e =>
      rw [run_fire_of_advance_eq_error run args now shared hadvance]
      exact hm
  | ok result =>
      rw [run_fire_of_advance_eq_ok run args now shared hadvance]
      exact hm.advance h hadvance

theorem Live.placed (h : t.WellFormed) (hm : m.Live t) : m.Placed t := by
  induction hm with
  | started hstart => exact (coherent_ofStart h hstart).1.placed
  | resumed hresume => exact placed_of_resume hresume
  | fired _ run trigger args now shared ih => exact ih.fire h run trigger args now shared

theorem Placed.path_eq_of_isPrefix (hm : m.Placed t) (h : t.states <+: whole.states) :
    ({ m with table := whole } : Machine).path = m.path := by
  rw [path, path, hm.table_eq]
  apply List.filterMap_congr
  intro position hmem
  have hlt := hm.lt_size_of_mem_path hmem
  rw [← t.length_states] at hlt
  have hstate : t.state? position = some t.states[position] := List.getElem?_eq_getElem hlt
  rw [hstate, Table.state?_of_isPrefix h hstate]

/-- Where lines are added to a diagram, the states keep their positions, and a checkpoint of any
machine on the old table is resumed on the new one, at the same place and with the same past. -/
theorem resume_of_append {lines more : List Line}
    (h : Table.build (lines ++ more) = .ok whole) :
    ∃ t, Table.build lines = .ok t ∧ t.states <+: whole.states ∧
      (∀ state ∈ t.states, whole.position? state = t.position? state) ∧
      ∀ m, Live t m → ∀ (id : String) (now : Timestamp),
        ∃ resumed, resume whole (m.checkpoint id now) = .ok resumed ∧ resumed.table = whole ∧
          resumed.start = m.start ∧ resumed.current = m.current ∧ resumed.state = m.state ∧
          resumed.history = m.history ∧ resumed.path = m.path := by
  obtain ⟨t, hbuild, hbegins⟩ := Table.exists_build_of_append h
  have ht := Table.wellFormed_of_build hbuild
  refine ⟨t, hbuild, hbegins, ?_, ?_⟩
  · intro state hstate
    exact ht.position?_of_isPrefix (Table.wellFormed_of_build h) hbegins hstate
  · intro m hm id now
    have hplaced := hm.placed ht
    exact ⟨_, hplaced.resume_checkpoint hbegins id now, rfl, rfl, rfl, rfl, rfl,
      hplaced.path_eq_of_isPrefix hbegins⟩

/-- The longer diagram has another entry for the first move and none for the second, but both are
remembered. -/
theorem resume_of_append_of_go :
    let now : Timestamp := .ofSecondOfDay (.firstOfYear 2024) 0 0
    let lines : List Line := [⟨1, ⟨true, false⟩, .text "A", .text "B", some (.text "go")⟩,
      ⟨2, ⟨true, false⟩, .text "B", .text "A", none⟩]
    let more : List Line := [⟨3, ⟨true, false⟩, .text "B", .text "C", some (.text "on")⟩,
      ⟨4, ⟨true, false⟩, .text "A", .text "C", some (.text "go")⟩]
    ∃ t whole m resumed, Table.build lines = .ok t ∧ Table.build (lines ++ more) = .ok whole ∧
      Live t m ∧ m.history.steps.map Step.trigger = ["go", ""] ∧
      (whole.get? (.text "B")).bind Dictionary.default? = none ∧
      resume whole (m.checkpoint "" now) = .ok resumed ∧
      resumed.path = [.text "A", .text "B", .text "A"] := by
  intro now lines more
  let t : Table := ⟨[(.text "A", ⟨[("go", .leadingTo (.text "B") (some (.text "go")))]⟩),
    (.text "B", ⟨[("", .leadingTo (.text "A") none)]⟩)]⟩
  let run : Behaviors Unit := fun _ _ => pure .null
  have started := @Live.started t _ (.text "A") rfl
  have went := started.fired run "go" [] now ()
  have back := went.fired run "stop" [] now ()
  have hbuild : Table.build lines = .ok t := rfl
  have hwhole : Table.build (lines ++ more) = .ok _ := rfl
  obtain ⟨t', hbuild', -, -, hresume⟩ := resume_of_append hwhole
  obtain rfl : t = t' := Except.ok.inj (hbuild.symm.trans hbuild')
  obtain ⟨resumed, hresumed, -, -, -, -, -, hpath⟩ := hresume _ back "" now
  exact ⟨t, _, _, resumed, hbuild, hwhole, back, rfl, rfl, hresumed, hpath.trans rfl⟩

end Machine

end StateDiagram
