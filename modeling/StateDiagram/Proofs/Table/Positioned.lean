import StateDiagram.Proofs.Enumeration
import StateDiagram.Proofs.Table.Directions
import StateDiagram.Proofs.Table.WellFormed

/-!
# Tables with a map of positions

A table can keep a map from its states to their positions, and find the dictionary that a line
changes through the map.  Map and states are extended apart from each other.  They stay inverse to
each other through every step of the builder, which therefore arrives at the tables that are built
without a map, and tables of the same rows have the same map.
-/

namespace StateDiagram

theorem Table.eq_of_states_eq {t other : Table} (hstates : t.states = other.states)
    (hdictionaries : ∀ i, t.dictionary? i = other.dictionary? i) : t = other := by
  have hsecond : t.rows.map Prod.snd = other.rows.map Prod.snd := by
    apply List.ext_getElem?
    intro i
    rw [List.getElem?_map, List.getElem?_map]
    exact hdictionaries i
  have hrows : t.rows = other.rows := by
    calc
      t.rows = t.states.zip (t.rows.map Prod.snd) := List.zip_of_prod rfl rfl
      _ = other.states.zip (other.rows.map Prod.snd) := by rw [hstates, hsecond]
      _ = other.rows := (List.zip_of_prod rfl rfl).symm
  exact congrArg Table.mk hrows

structure PositionedTable extends Table where
  positions : Finmap fun _ : Ident => Nat
  deriving DecidableEq

namespace PositionedTable

def empty : PositionedTable := ⟨.empty, ∅⟩

def enumeration (t : PositionedTable) : Enumeration := ⟨t.states, t.positions⟩

/-- The position of a state, in the table that has it.  A new state comes last. -/
def register (t : PositionedTable) (state : Ident) : PositionedTable × Nat :=
  match t.positions.lookup state with
  | some position => (t, position)
  | none =>
      (⟨⟨t.rows ++ [(state, .empty)]⟩, t.positions.insert state t.rows.length⟩, t.rows.length)

/-- Changes the dictionary at the position of a state. -/
def modify (t : PositionedTable) (state : Ident) (change : Dictionary → Dictionary) :
    PositionedTable :=
  let (t, position) := t.register state
  { t with rows := t.rows.modify position fun (state, d) => (state, change d) }

def addDefault (t : PositionedTable) (move : Ident × Ident) : PositionedTable :=
  ((t.register move.1).1.register move.2).1.modify move.1
    (·.insert defaultKey (.leadingTo move.2 none))

def addNamed (event : Ident) (t : PositionedTable) (move : Ident × Ident) : PositionedTable :=
  t.modify move.1 fun d =>
    (d.erase defaultKey).insert event.label (.leadingTo move.2 (some event))

def addLine (t : PositionedTable) (line : Line) : Except DiagramError PositionedTable :=
  let t := line.moves.foldl addDefault t
  match line.event with
  | none => .ok t
  | some event =>
      if event.label = "" then .error (.anonymousEvent line.number)
      else .ok (line.moves.foldl (addNamed event) t)

def build (lines : List Line) : Except DiagramError PositionedTable := lines.foldlM addLine empty

/-! ## Every step keeps map and states inverse -/

/-- The rows are those of the table, and the map is inverse to its states. -/
structure Tracks (t : PositionedTable) (table : Table) : Prop where
  toTable_eq : t.toTable = table
  inverse : t.enumeration.Inverse

variable {t : PositionedTable} {table : Table}

theorem tracks_empty : empty.Tracks .empty := ⟨rfl, Enumeration.inverse_empty⟩

theorem enumeration_register (t : PositionedTable) (state : Ident) :
    (t.register state).1.enumeration = t.enumeration.add state := by
  cases hplace : t.positions.lookup state with
  | some position =>
      have hmem : state ∈ t.enumeration.places := Finmap.mem_of_lookup_eq_some hplace
      rw [register, hplace, Enumeration.add, if_pos hmem]
  | none =>
      have hmem : state ∉ t.enumeration.places := Finmap.lookup_eq_none.1 hplace
      rw [register, hplace, Enumeration.add, if_neg hmem]
      simp [enumeration, Table.states]

theorem lookup_register (t : PositionedTable) (state : Ident) :
    (t.register state).1.positions.lookup state = some (t.register state).2 := by
  cases hplace : t.positions.lookup state with
  | some position => rw [register, hplace, hplace]
  | none => rw [register, hplace, Finmap.lookup_insert]

namespace Tracks

theorem register (h : t.Tracks table) (state : Ident) :
    (t.register state).1.Tracks (table.register state) where
  toTable_eq := by
    obtain ⟨rfl, hinverse⟩ := h
    cases hplace : t.positions.lookup state with
    | some position =>
        have hstate : t.states[position]? = some state := (hinverse state position).1 hplace
        rw [PositionedTable.register, hplace, Table.register_of_mem (List.mem_of_getElem? hstate)]
    | none =>
        have hstate : state ∉ t.states :=
          mt hinverse.mem_places_iff.2 (Finmap.lookup_eq_none.1 hplace)
        rw [PositionedTable.register, hplace, Table.register_of_not_mem hstate]
  inverse := by
    rw [enumeration_register]
    exact h.inverse.add state

/-- The dictionary that is changed is that of the state. -/
theorem getElem?_register (h : t.Tracks table) (state : Ident) :
    (t.register state).1.states[(t.register state).2]? = some state :=
  ((h.register state).inverse state _).1 (lookup_register t state)

theorem modify (h : t.Tracks table) (state : Ident) (change : Dictionary → Dictionary) :
    (t.modify state change).Tracks (table.modify state change) := by
  obtain ⟨htable, hinverse⟩ := h.register state
  obtain ⟨d, hrow⟩ := Table.state?_eq_some_iff.1 (h.getElem?_register state)
  have hget : (table.register state).get? state = some d := by
    rw [← htable]
    exact (Assoc.lookup_eq_some_iff_mem hinverse.nodup).2 (List.mem_of_getElem? hrow)
  have hrows : (t.modify state change).toTable = table.modify state change := by
    calc
      (t.modify state change).toTable =
          ⟨Assoc.put state (change d) (t.register state).1.rows⟩ :=
        congrArg Table.mk (Assoc.modify_eq_put hinverse.nodup hrow change)
      _ = (table.register state).modify state change := by
        rw [Table.modify, hget, Option.getD_some, htable]
      _ = table.modify state change := Table.modify_modify table state id change
  have hstates : (t.modify state change).states = (t.register state).1.states := by
    rw [hrows, htable, Table.states_modify, Table.register, Table.states_modify]
  refine ⟨hrows, ?_⟩
  rw [enumeration, hstates]
  exact hinverse

theorem addDefault (h : t.Tracks table) (move : Ident × Ident) :
    (t.addDefault move).Tracks (table.addDefault move) :=
  ((h.register move.1).register move.2).modify move.1 _

theorem addNamed (h : t.Tracks table) (event : Ident) (move : Ident × Ident) :
    (t.addNamed event move).Tracks (table.addNamed event move) :=
  h.modify move.1 _

end Tracks

/-! ## Building with the map and without -/

/-- Both fail with one error, or one table tracks the other. -/
def Agree : Except DiagramError PositionedTable → Except DiagramError Table → Prop
  | .ok t, .ok table => t.Tracks table
  | .error e, .error e' => e = e'
  | _, _ => False

namespace Agree

variable {positioned : Except DiagramError PositionedTable} {built : Except DiagramError Table}

theorem exists_table (h : Agree (.ok t) built) : ∃ table, built = .ok table ∧ t.Tracks table := by
  match built, h with
  | .ok table, h => exact ⟨table, rfl, h⟩

theorem exists_positioned (h : Agree positioned (.ok table)) :
    ∃ t, positioned = .ok t ∧ t.Tracks table := by
  match positioned, h with
  | .ok t, h => exact ⟨t, rfl, h⟩

theorem bind {next : PositionedTable → Except DiagramError PositionedTable}
    {tableNext : Table → Except DiagramError Table} (h : Agree positioned built)
    (hnext : ∀ {t table}, t.Tracks table → Agree (next t) (tableNext table)) :
    Agree (positioned >>= next) (built >>= tableNext) := by
  match positioned, built, h with
  | .ok _, .ok _, h => exact hnext h
  | .error _, .error _, h => exact h

end Agree

namespace Tracks

theorem addLine (h : t.Tracks table) (line : Line) :
    Agree (t.addLine line) (table.addLine line) := by
  have hdefault : (line.moves.foldl PositionedTable.addDefault t).Tracks
      (line.moves.foldl Table.addDefault table) :=
    List.foldl_rel h fun move _ _ _ h => h.addDefault move
  cases hevent : line.event with
  | none =>
      simp only [PositionedTable.addLine, Table.addLine, hevent]
      exact hdefault
  | some event =>
      by_cases hlabel : event.label = ""
      · simp [PositionedTable.addLine, Table.addLine, hevent, hlabel, Agree]
      · simp only [PositionedTable.addLine, Table.addLine, hevent, if_neg hlabel]
        exact List.foldl_rel hdefault fun move _ _ _ h => h.addNamed event move

theorem foldlM_addLine (h : t.Tracks table) (lines : List Line) :
    Agree (lines.foldlM PositionedTable.addLine t) (lines.foldlM Table.addLine table) := by
  induction lines generalizing t table with
  | nil => exact h
  | cons line lines ih =>
      rw [List.foldlM_cons, List.foldlM_cons]
      exact (h.addLine line).bind fun hnext => ih hnext

end Tracks

theorem agree_build (lines : List Line) : Agree (build lines) (Table.build lines) :=
  tracks_empty.foldlM_addLine lines

theorem tracks_of_build {lines : List Line} (h : build lines = .ok t) :
    Table.build lines = .ok t.toTable ∧ t.enumeration.Inverse := by
  have hagree := agree_build lines
  rw [h] at hagree
  obtain ⟨table, htable, rfl, hinverse⟩ := hagree.exists_table
  exact ⟨htable, hinverse⟩

theorem exists_of_build {lines : List Line} (h : Table.build lines = .ok table) :
    ∃ t, build lines = .ok t ∧ t.Tracks table := by
  have hagree := agree_build lines
  rw [h] at hagree
  exact hagree.exists_positioned

/-- A map that is inverse to the states says nothing that the states do not say. -/
theorem eq_of_inverse {other : PositionedTable} (h : t.enumeration.Inverse)
    (hother : other.enumeration.Inverse) (hstates : t.states = other.states)
    (hdictionaries : ∀ i, t.dictionary? i = other.dictionary? i) : t = other := by
  have hpositions : t.positions = other.positions :=
    congrArg Enumeration.places (h.eq_of_idents_eq hother hstates)
  have htable : t.toTable = other.toTable := Table.eq_of_states_eq hstates hdictionaries
  obtain ⟨table, positions⟩ := t
  obtain ⟨_, _⟩ := other
  subst htable hpositions
  rfl

/-- Every beginning of a diagram is built with the map as it is without one, or fails with the same
error.  In what is built the map and the states are inverse to each other, no key stands twice in a
dictionary, and every entry leads to a state of the table and has its key and its action from its
event and its next state.  The map is no more than a second form of the states, so that tables with
the same states and dictionaries are the same. -/
theorem invariant_of_build (lines : List Line) (n : Nat) :
    Agree (build (lines.take n)) (Table.build (lines.take n)) ∧
    ∀ t, build (lines.take n) = .ok t →
      (∀ state i, t.positions.lookup state = some i ↔ t.state? i = some state) ∧
      t.states.Nodup ∧
      (∀ i d, t.dictionary? i = some d →
        (d.entries.map Prod.fst).Nodup ∧
        ∀ key entry, (key, entry) ∈ d.entries →
          entry.next ∈ t.states ∧
          (key = "" ↔ entry.event = none) ∧
          (∀ event, entry.event = some event → key = event.label ∧ event.label ≠ "") ∧
          (entry.action = .compose ↔ entry.next.isCallable = true ∨
            ∃ event, entry.event = some event ∧ event.isCallable = true)) ∧
      ∀ others other, build others = .ok other → t.states = other.states →
        (∀ i, t.dictionary? i = other.dictionary? i) → t = other := by
  refine ⟨agree_build _, ?_⟩
  intro t hbuild
  obtain ⟨htable, hinverse⟩ := tracks_of_build hbuild
  have hwell := Table.wellFormed_of_build htable
  refine ⟨hinverse, hwell.states_nodup, ?_, ?_⟩
  · intro i d hd
    obtain ⟨state, hrow⟩ := Table.dictionary?_eq_some_iff.1 hd
    have hmem := List.mem_of_getElem? hrow
    have hdictionary := hwell.dictionary _ hmem
    refine ⟨hdictionary.keys_nodup, ?_⟩
    intro key entry hentry
    exact ⟨hwell.next_mem _ hmem hentry, hdictionary.key_eq_defaultKey_iff hentry,
      fun event hevent => hdictionary.key_eq_label hentry hevent,
      hdictionary.action_eq_compose_iff hentry⟩
  · intro others other hother hstates hdictionaries
    exact eq_of_inverse hinverse (tracks_of_build hother).2 hstates hdictionaries

/-- The last line has an event without a label, and the lines before it make a loop, lead both ways
and override a default.  The second diagram writes the same table in another way. -/
theorem invariant_of_build_of_loop :
    let run : Ident := .behavior ⟨0, "run"⟩
    let go : Ident := .constructor ⟨1, "go"⟩
    let stop : Ident := .text "stop"
    let lines : List Line :=
      [⟨1, ⟨true, true⟩, .text "A", run, none⟩, ⟨2, ⟨true, true⟩, .text "A", .text "A", some go⟩,
        ⟨3, ⟨false, true⟩, .text "B", run, some stop⟩,
        ⟨4, ⟨true, false⟩, .text "B", run, some (.behavior ⟨2, ""⟩)⟩]
    let others : List Line :=
      [⟨1, ⟨true, false⟩, .text "A", run, none⟩, ⟨2, ⟨true, false⟩, .text "A", .text "A", some go⟩,
        ⟨3, ⟨true, false⟩, run, .text "B", some stop⟩]
    let loop : Entry := ⟨.text "A", some go, .compose⟩
    let table : Table :=
      ⟨[(.text "A", ⟨[("go", loop)]⟩), (run, ⟨[("stop", ⟨.text "B", some stop, .label⟩)]⟩),
        (.text "B", .empty)]⟩
    build lines = .error (.anonymousEvent 4) ∧
    ∃ t, build (lines.take 3) = .ok t ∧ t.toTable = table ∧
      t.positions.lookup run = some 1 ∧
      (loop.action = .compose ↔ loop.next.isCallable = true ∨
        ∃ event, loop.event = some event ∧ event.isCallable = true) ∧
      build others = .ok t := by
  intro run go stop lines others loop table
  obtain ⟨t, hbuild⟩ : ∃ t, build (lines.take 3) = .ok t := ⟨_, rfl⟩
  obtain ⟨other, hother⟩ : ∃ other, build others = .ok other := ⟨_, rfl⟩
  obtain ⟨hagree, hinvariant⟩ := invariant_of_build lines 3
  obtain ⟨hpositions, -, hdictionary, hunique⟩ := hinvariant t hbuild
  have ht : t.toTable = table := by
    rw [hbuild, show Table.build (lines.take 3) = .ok table by decide +kernel] at hagree
    exact hagree.toTable_eq
  have hsame : other.toTable = table :=
    Except.ok.inj ((tracks_of_build hother).1.symm.trans (by decide +kernel))
  have hloop : t.dictionary? 0 = some ⟨[("go", loop)]⟩ := by rw [ht]; rfl
  obtain ⟨-, -, -, haction⟩ := (hdictionary 0 _ hloop).2 "go" loop (by simp)
  have heq : t = other := by
    apply hunique others other hother
    · rw [ht, hsame]
    · intro i
      rw [ht, hsame]
  refine ⟨rfl, t, hbuild, ht, (hpositions run 1).2 ?_, haction, heq ▸ hother⟩
  rw [ht]
  rfl

end PositionedTable

end StateDiagram
