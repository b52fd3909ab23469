import StateDiagram.Checkpoint
import StateDiagram.Proofs.Machine

/-!
# Machines that are reached

A machine is reached by starting it, firing it and resuming it from its own checkpoints.  Its
history is then one walk along entries of the table, from the start to the current position, and
its path shows every state of that walk.  Resuming asks for less: that the table has the positions
of the checkpoint and, at the current one, a state of the same label.
-/

namespace StateDiagram

/-! ## Walks -/

namespace Step

/-- The steps lead from a position to another, each from where the one before it arrived. -/
def Connect : Nat → List Step → Nat → Prop
  | start, [], current => start = current
  | start, step :: rest, current => step.source = start ∧ Connect step.target rest current

theorem connect_concat {steps : List Step} {step : Step} {start : Nat}
    (h : Connect start steps step.source) : Connect start (steps ++ [step]) step.target := by
  induction steps generalizing start with
  | nil => exact ⟨h.symm, rfl⟩
  | cons first steps ih => exact ⟨h.1, ih h.2⟩

theorem getLast?_of_connect {steps : List Step} {start current : Nat}
    (h : Connect start steps current) :
    (start :: steps.map target).getLast? = some current := by
  induction steps generalizing start with
  | nil => exact congrArg some h
  | cons first steps ih =>
      rw [List.map_cons, List.getLast?_cons_cons]
      exact ih h.2

end Step

theorem History.path_of_connect {h : History} {start current : Nat}
    (hconnect : Step.Connect start h.steps current) :
    h.path = if h.size = 0 then [] else start :: h.steps.map Step.target := by
  obtain ⟨steps⟩ := h
  cases steps with
  | nil => rfl
  | cons first steps => simp [path, size, hconnect.1]

namespace Table

variable {t : Table} {position : Nat}

theorem lt_size_of_state? {state : Ident} (h : t.state? position = some state) :
    position < t.size := by
  obtain ⟨hlt, -⟩ := List.getElem?_eq_some_iff.1 h
  simpa using hlt

theorem lt_size_of_dictionary? {d : Dictionary} (h : t.dictionary? position = some d) :
    position < t.size := by
  obtain ⟨state, hrow⟩ := dictionary?_eq_some_iff.1 h
  exact (List.getElem?_eq_some_iff.1 hrow).1

theorem state?_of_isPrefix {whole : Table} (h : t.states <+: whole.states) {state : Ident}
    (hstate : t.state? position = some state) : whole.state? position = some state := by
  obtain ⟨more, hmore⟩ := h
  rw [state?] at hstate ⊢
  rw [← hmore, List.getElem?_append_left (List.getElem?_eq_some_iff.1 hstate).1]
  exact hstate

end Table

/-! ## Machines and the positions that they hold -/

namespace Machine

variable {t whole : Table} {m : Machine}

theorem resume_eq_ok_iff {c : Checkpoint} :
    resume t c = .ok m ↔
      c.version = checkpointVersion ∧
      (∀ step ∈ c.history.steps, step.source < t.size ∧ step.target < t.size) ∧
      c.start < t.size ∧
      ∃ state, t.state? c.current = some state ∧ state.label = c.currentLabel ∧
        m = ⟨t, c.start, c.current, state, c.history⟩ := by
  unfold resume
  constructor
  · intro h
    split at h
    · contradiction
    · next hversion =>
        split at h
        · contradiction
        · next hsteps =>
            split at h
            · contradiction
            · next hstart =>
                split at h
                · contradiction
                · next state hstate =>
                    split at h
                    · next hlabel =>
                        cases h
                        refine ⟨by simpa using hversion, ?_, by omega, state, hstate, hlabel, rfl⟩
                        intro step hmem
                        have hrange := List.find?_eq_none.1 hsteps step hmem
                        simpa using hrange
                    · contradiction
  · rintro ⟨hversion, hsteps, hstart, state, hstate, hlabel, rfl⟩
    have hrange : c.history.steps.find? (fun s => t.size ≤ s.source || t.size ≤ s.target) =
        none := by
      rw [List.find?_eq_none]
      intro step hmem
      simpa using hsteps step hmem
    simp [hversion, hrange, hstart, hstate, hlabel]

/-- Every position that the machine holds is one of the table. -/
structure Placed (t : Table) (m : Machine) : Prop extends RunsOn t m where
  start_lt : m.start < t.size
  steps_lt : ∀ step ∈ m.history.steps, step.source < t.size ∧ step.target < t.size

/-- A checkpoint passes all checks of a table that begins with the states of its own. -/
theorem Placed.resume_checkpoint (hm : m.Placed t) (h : t.states <+: whole.states) (id : String)
    (now : Timestamp) : resume whole (m.checkpoint id now) = .ok { m with table := whole } := by
  have hsize : t.size ≤ whole.size := by
    rw [← t.length_states, ← whole.length_states]
    exact h.length_le
  refine resume_eq_ok_iff.2 ⟨rfl, ?_, Nat.lt_of_lt_of_le hm.start_lt hsize, m.state,
    Table.state?_of_isPrefix h hm.state?_current, rfl, rfl⟩
  intro step hmem
  obtain ⟨hsource, htarget⟩ := hm.steps_lt step hmem
  exact ⟨Nat.lt_of_lt_of_le hsource hsize, Nat.lt_of_lt_of_le htarget hsize⟩

theorem Placed.resume_checkpoint_self (hm : m.Placed t) (id : String) (now : Timestamp) :
    resume t (m.checkpoint id now) = .ok m := by
  obtain rfl := hm.table_eq
  exact hm.resume_checkpoint List.prefix_rfl id now

theorem Placed.lt_size_of_mem_path (hm : m.Placed t) {position : Nat}
    (h : position ∈ m.history.path) : position < t.size := by
  obtain ⟨table, start, current, state, ⟨steps⟩⟩ := m
  cases steps with
  | nil => contradiction
  | cons first steps =>
      rcases List.mem_cons.1 h with rfl | hmem
      · exact (hm.steps_lt first List.mem_cons_self).1
      · obtain ⟨step, hstep, rfl⟩ := List.mem_map.1 hmem
        exact (hm.steps_lt step hstep).2

end Machine

/-! ## Coherent machines -/

namespace Table

variable {t : Table}

/-- The entry under the key of the step leads from its source to its target. -/
def Allows (t : Table) (step : Step) : Prop :=
  ∃ d entry, t.dictionary? step.source = some d ∧ d.get? step.trigger = some entry ∧
    t.state? step.target = some entry.next

theorem Allows.source_lt {step : Step} (h : t.Allows step) : step.source < t.size := by
  obtain ⟨d, entry, hd, -, -⟩ := h
  exact lt_size_of_dictionary? hd

theorem Allows.target_lt {step : Step} (h : t.Allows step) : step.target < t.size := by
  obtain ⟨d, entry, -, -, hstate⟩ := h
  exact lt_size_of_state? hstate

end Table

namespace Machine

variable {t : Table} {m moved : Machine} {trigger : String} {now : Timestamp}

structure Coherent (t : Table) (m : Machine) : Prop extends RunsOn t m where
  start_lt : m.start < t.size
  connect : Step.Connect m.start m.history.steps m.current
  allows : ∀ step ∈ m.history.steps, t.Allows step

theorem coherent_ofStart (h : t.WellFormed) {start : Ident} (hm : ofStart t start = .ok m) :
    m.Coherent t ∧ m.history = .empty := by
  have hruns := runsOn_ofStart h hm
  unfold ofStart at hm
  split at hm
  · cases hm
    exact ⟨⟨hruns, Table.lt_size_of_state? hruns.state?_current, rfl, by simp [History.empty]⟩,
      rfl⟩
  · contradiction

theorem Coherent.advance (h : t.WellFormed) (hm : m.Coherent t) {entry : Entry}
    (hadvance : m.advance trigger now = .ok (moved, entry)) :
    moved.Coherent t ∧ moved.history.size = m.history.size + 1 := by
  obtain ⟨key, next, hlookup, hposition, rfl⟩ := advance_eq_ok_iff.1 hadvance
  obtain ⟨d, hd, hkey⟩ := Option.bind_eq_some_iff.1 hlookup
  rw [dictionary?, hm.table_eq] at hd
  rw [hm.table_eq] at hposition
  have hstate := h.position?_eq_some_iff.1 hposition
  have hstep : t.Allows ⟨m.current, next, key, now⟩ :=
    ⟨d, entry, hd, d.get?_of_lookup? hkey, hstate⟩
  refine ⟨⟨⟨hm.table_eq, hstate⟩, hm.start_lt, Step.connect_concat hm.connect, ?_⟩,
    m.history.size_record _⟩
  intro step hmem
  rcases List.mem_append.1 hmem with hold | hnew
  · exact hm.allows step hold
  · rw [List.mem_singleton.1 hnew]
    exact hstep

theorem Coherent.placed (hm : m.Coherent t) : m.Placed t :=
  ⟨hm.toRunsOn, hm.start_lt, fun step hmem =>
    ⟨(hm.allows step hmem).source_lt, (hm.allows step hmem).target_lt⟩⟩

/-- A machine passes all checks of its own checkpoint and is restored as it was. -/
theorem Coherent.resume_checkpoint (hm : m.Coherent t) (id : String) (now : Timestamp) :
    resume t (m.checkpoint id now) = .ok m :=
  hm.placed.resume_checkpoint_self id now

/-! ## Paths -/

/-- A path shows every state that was visited. -/
theorem Placed.path_eq (hm : m.Placed t) :
    m.path.map some = m.history.path.map t.state? := by
  have hrange : ∀ position ∈ m.history.path, ∃ state, t.state? position = some state := by
    intro position hmem
    have hlt := hm.lt_size_of_mem_path hmem
    rw [← t.length_states] at hlt
    exact ⟨_, List.getElem?_eq_getElem hlt⟩
  -- Only that the positions are in the table matters from here, not that they are a path.
  rw [path, hm.table_eq]
  generalize m.history.path = positions at hrange
  induction positions with
  | nil => rfl
  | cons position positions ih =>
      obtain ⟨state, hstate⟩ := hrange position (by simp)
      have hrest := ih fun p hp => hrange p (List.mem_cons_of_mem _ hp)
      rw [List.filterMap_cons_some hstate, List.map_cons, List.map_cons, hstate, hrest]

theorem Coherent.path_eq (hm : m.Coherent t) :
    m.path.map some = m.history.path.map t.state? :=
  hm.placed.path_eq

theorem Coherent.path_eq_nil (hm : m.Coherent t) (hsize : m.history.size = 0) : m.path = [] := by
  have hpath := hm.path_eq
  rw [History.path_of_connect hm.connect, if_pos hsize] at hpath
  simpa using hpath

theorem Coherent.path_spans (hm : m.Coherent t) (hsize : 0 < m.history.size) :
    m.path.length = m.history.size + 1 ∧ m.path.head? = t.state? m.start ∧
      m.path.getLast? = some m.state := by
  have hpath := hm.path_eq
  rw [History.path_of_connect hm.connect, if_neg (by omega)] at hpath
  refine ⟨?_, ?_, ?_⟩
  · simpa [History.size] using congrArg List.length hpath
  · have hhead := congrArg List.head? hpath
    rw [List.head?_map, List.map_cons, List.head?_cons] at hhead
    obtain ⟨state, hstate, heq⟩ := Option.map_eq_some_iff.1 hhead
    rw [hstate, ← heq]
  · have hlast := congrArg List.getLast? hpath
    rw [List.getLast?_map, List.getLast?_map, Step.getLast?_of_connect hm.connect,
      Option.map_some, hm.state?_current] at hlast
    obtain ⟨state, hstate, heq⟩ := Option.map_eq_some_iff.1 hlast
    rw [hstate, heq]

/-! ## Reached machines -/

/-- The machine comes from a start on the table by firing and resuming, and the number is that of
the firings that succeeded. -/
inductive Reached (t : Table) : Nat → Machine → Prop where
  | start {m : Machine} {state : Ident} (h : ofStart t state = .ok m) : Reached t 0 m
  | moved {moves : Nat} {m after : Machine} (hm : Reached t moves m) {σ : Type}
      {run : Behaviors σ} {trigger : String} {args : List Value} {now : Timestamp}
      {shared left : σ} {output : Value}
      (h : (m.fire run trigger args now).run shared = ((.ok output, after), left)) :
      Reached t (moves + 1) after
  | refused {moves : Nat} {m after : Machine} (hm : Reached t moves m) {σ : Type}
      {run : Behaviors σ} {trigger : String} {args : List Value} {now : Timestamp}
      {shared left : σ} {e : MachineError}
      (h : (m.fire run trigger args now).run shared = ((.error e, after), left)) :
      Reached t moves after
  | resumed {moves : Nat} {m after : Machine} (hm : Reached t moves m) {id : String}
      {now : Timestamp} (h : resume t (m.checkpoint id now) = .ok after) : Reached t moves after

section Firing

variable {σ : Type} {run : Behaviors σ} {args : List Value} {shared left : σ}

theorem advance_of_fire_eq_ok {output : Value}
    (h : (m.fire run trigger args now).run shared = ((.ok output, moved), left)) :
    ∃ entry, m.advance trigger now = .ok (moved, entry) := by
  cases hadvance : m.advance trigger now with
  | error e =>
      rw [run_fire_of_advance_eq_error run args now shared hadvance] at h
      cases h
  | ok result =>
      rw [run_fire_of_advance_eq_ok run args now shared hadvance] at h
      cases h
      exact ⟨result.2, rfl⟩

theorem eq_of_fire_eq_error {e : MachineError}
    (h : (m.fire run trigger args now).run shared = ((.error e, moved), left)) : moved = m := by
  cases hadvance : m.advance trigger now with
  | error e =>
      rw [run_fire_of_advance_eq_error run args now shared hadvance] at h
      cases h
      rfl
  | ok result =>
      rw [run_fire_of_advance_eq_ok run args now shared hadvance] at h
      cases h

end Firing

theorem Reached.coherent (h : t.WellFormed) {moves : Nat} (hm : m.Reached t moves) :
    m.Coherent t ∧ m.history.size = moves := by
  induction hm with
  | start hstart =>
      obtain ⟨hcoherent, hhistory⟩ := coherent_ofStart h hstart
      exact ⟨hcoherent, by simp [hhistory, History.empty, History.size]⟩
  | moved _ hfire ih =>
      obtain ⟨entry, hadvance⟩ := advance_of_fire_eq_ok hfire
      obtain ⟨hcoherent, hsize⟩ := ih.1.advance h hadvance
      exact ⟨hcoherent, by rw [hsize, ih.2]⟩
  | refused _ hfire ih =>
      rw [eq_of_fire_eq_error hfire]
      exact ih
  | resumed _ hresume ih =>
      rw [ih.1.resume_checkpoint] at hresume
      cases hresume
      exact ih

/-- What holds of every machine that is reached, with the number of its moves. -/
theorem coherent_of_reached {lines : List Line} (hbuild : Table.build lines = .ok t) {moves : Nat}
    (hm : Reached t moves m) :
    m.Coherent t ∧ m.history.size = moves ∧
      m.path.map some = m.history.path.map t.state? ∧ (moves = 0 → m.path = []) ∧
      (0 < moves → m.path.length = moves + 1 ∧ m.path.head? = t.state? m.start ∧
        m.path.getLast? = some m.state) := by
  obtain ⟨hcoherent, rfl⟩ := hm.coherent (Table.wellFormed_of_build hbuild)
  exact ⟨hcoherent, rfl, hcoherent.path_eq, hcoherent.path_eq_nil, hcoherent.path_spans⟩

/-- A refused trigger, a move along a named entry, a cut and a move along a default entry. -/
theorem coherent_of_reached_of_go :
    ∃ t m, Table.build [⟨1, ⟨true, false⟩, .text "A", .text "B", some (.text "go")⟩,
        ⟨2, ⟨true, false⟩, .text "B", .text "A", none⟩] = .ok t ∧ Reached t 2 m ∧
      m.Coherent t ∧ m.history.steps.map Step.trigger = ["go", ""] ∧
      m.path = [.text "A", .text "B", .text "A"] ∧ m.path.length = 2 + 1 := by
  let t : Table := ⟨[(.text "A", ⟨[("go", .leadingTo (.text "B") (some (.text "go")))]⟩),
    (.text "B", ⟨[("", .leadingTo (.text "A") none)]⟩)]⟩
  let now : Timestamp := .ofSecondOfDay (.firstOfYear 2024) 0 0
  let run : Behaviors Unit := fun _ _ => pure .null
  have started := @Reached.start t _ (.text "A") rfl
  have refused := @Reached.refused _ _ _ _ started _ run "stop" [] now () _ _ rfl
  have went := @Reached.moved _ _ _ _ refused _ run "go" [] now () _ _ rfl
  have cut := @Reached.resumed _ _ _ _ went "" now rfl
  have back := @Reached.moved _ _ _ _ cut _ run "stop" [] now () _ _ rfl
  have hbuild : Table.build [⟨1, ⟨true, false⟩, .text "A", .text "B", some (.text "go")⟩,
      ⟨2, ⟨true, false⟩, .text "B", .text "A", none⟩] = .ok t := rfl
  obtain ⟨hcoherent, -, -, -, hspans⟩ := coherent_of_reached hbuild back
  exact ⟨t, _, hbuild, back, hcoherent, rfl, rfl, (hspans (by decide)).1⟩

end Machine

end StateDiagram
