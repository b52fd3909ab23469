import StateDiagram.Proofs.Machine.Course
import StateDiagram.Proofs.Table.Reordering

/-!
# Machines on reordered diagrams

On a reordered diagram a state has another position but the same dictionary.  A machine that is
started in the same state is therefore led through the same states by the same triggers, and it is
refused at the same firings.
-/

namespace StateDiagram

namespace Table.Similar

variable {t other : Table}

theorem ofStart_eq_error_iff (h : t.Similar other) (start : Ident) (e : MachineError) :
    Machine.ofStart t start = .error e ↔ Machine.ofStart other start = .error e := by
  have hsome := h.position?_isSome_eq start
  unfold Machine.ofStart
  cases hposition : t.position? start <;> cases hother : other.position? start <;>
    simp_all

end Table.Similar

namespace Machine

variable {t other : Table} {m twin : Machine}

/-- The steps of a machine by states instead of positions: source, target and trigger key. -/
def trail (m : Machine) : List (Option Ident × Option Ident × String) :=
  m.history.steps.map fun step =>
    (m.table.state? step.source, m.table.state? step.target, step.trigger)

theorem path_eq_trail (m : Machine) :
    m.path =
      ((m.trail.head?.map Prod.fst).toList ++ m.trail.map fun step => step.2.1).filterMap id := by
  have hstates : (m.trail.head?.map Prod.fst).toList ++ (m.trail.map fun step => step.2.1) =
      m.history.path.map m.table.state? := by
    obtain ⟨table, start, current, state, ⟨steps⟩⟩ := m
    cases steps <;> simp [History.path, trail]
  rw [hstates, List.filterMap_map]
  rfl

/-- The machines stand in the same state, each at its position in its own table, and have come there
along the same states. -/
structure Alike (t other : Table) (m twin : Machine) : Prop where
  runsOn : m.RunsOn t
  runsOn_twin : twin.RunsOn other
  state_eq : m.state = twin.state
  trail_eq : m.trail = twin.trail

theorem RunsOn.lookup?_eq (h : t.WellFormed) (hm : m.RunsOn t) (trigger : String) :
    m.lookup? trigger = (t.get? m.state).bind (·.lookup? trigger) := by
  rw [lookup?, dictionary?, hm.table_eq, h.dictionary?_eq_get? hm.state?_current]

theorem alike_ofStart (h : t.WellFormed) (hother : other.WellFormed) {start : Ident}
    (hm : ofStart t start = .ok m) (htwin : ofStart other start = .ok twin) :
    Alike t other m twin := by
  refine ⟨runsOn_ofStart h hm, runsOn_ofStart hother htwin, ?_, ?_⟩ <;>
    · unfold ofStart at hm htwin
      split at hm <;> split at htwin <;> cases hm <;> cases htwin
      rfl

theorem RunsOn.exists_advance (h : t.WellFormed) (hm : m.RunsOn t) {trigger key : String}
    {entry : Entry} (hlookup : m.lookup? trigger = some (key, entry)) (now : Timestamp) :
    ∃ moved, m.advance trigger now = .ok (moved, entry) ∧ moved.RunsOn t ∧
      moved.state = entry.next ∧
      moved.trail = m.trail ++ [(some m.state, some entry.next, key)] := by
  obtain ⟨next, hposition⟩ := exists_position?_of_lookup? h hm.table_eq hlookup
  have hstate := h.position?_eq_some_iff.1 hposition
  rw [← hm.table_eq] at hposition
  refine ⟨_, advance_eq_ok_iff.2 ⟨key, next, hlookup, hposition, rfl⟩, ⟨hm.table_eq, hstate⟩, rfl,
    ?_⟩
  simp only [trail, History.record, List.map_append, List.map_cons, List.map_nil, hm.table_eq,
    hm.state?_current, hstate]

theorem lockstep_alike (h : t.Similar other) : Lockstep (Alike t other) := by
  constructor
  intro m twin hm trigger now later
  have hlookup : twin.lookup? trigger = m.lookup? trigger := by
    rw [hm.runsOn.lookup?_eq h.wellFormed, hm.runsOn_twin.lookup?_eq h.wellFormed_other,
      hm.state_eq, h.get?_eq]
  cases hfound : m.lookup? trigger with
  | none =>
      refine .inl ⟨.noTransition m.state trigger, ?_, ?_⟩
      · simp only [advance, hfound]
      · simp only [advance, hlookup, hfound, hm.state_eq]
  | some found =>
      obtain ⟨key, entry⟩ := found
      obtain ⟨moved, hadvance, hmoved, hstate, htrail⟩ :=
        hm.runsOn.exists_advance h.wellFormed hfound now
      obtain ⟨again, hagain, hreached, hstate', htrail'⟩ :=
        hm.runsOn_twin.exists_advance h.wellFormed_other (hlookup.trans hfound) later
      refine .inr ⟨moved, again, entry, hadvance, hagain, hmoved, hreached, ?_, ?_⟩
      · rw [hstate, hstate']
      · rw [htrail, htrail', hm.trail_eq, hm.state_eq]

end Machine

/-! ## Reordering -/

/-- The lines of a diagram may be reordered as long as those that leave one state keep their order:
the table is the same up to the order of its rows, and so is all that depends on it. -/
theorem Table.build_of_reordered {lines again : List Line} {t : Table}
    (h : Line.Reordered lines again) (hbuild : Table.build lines = .ok t) :
    ∃ other, Table.build again = .ok other ∧ t.states.Perm other.states ∧
      (∀ state, t.get? state = other.get? state) ∧ Stats.ofTable t = Stats.ofTable other ∧
      t.Renumbers other ∧
      ∀ start : Ident,
        (∀ e, Machine.ofStart t start = .error e ↔ Machine.ofStart other start = .error e) ∧
        ∀ m twin, Machine.ofStart t start = .ok m → Machine.ofStart other start = .ok twin →
        ∀ firings whole : List Firing, firings.map Firing.trigger = whole.map Firing.trigger →
        ∀ {σ τ : Type} (run : Behaviors σ) (run' : Behaviors τ) (shared : σ) (shared' : τ),
          let fired := ((m.fireEach run firings).run shared).1
          let again := ((twin.fireEach run' whole).run shared').1
          fired.1.map Machine.refusal? = again.1.map Machine.refusal? ∧
            fired.2.state = again.2.state ∧ fired.2.trail = again.2.trail ∧
            fired.2.path = again.2.path := by
  obtain ⟨hlines, rfl⟩ := build_eq_ok_iff.1 hbuild
  have hsimilar := similar_of_reordered h hlines
  refine ⟨described again, build_eq_ok_described fun line hline =>
    hlines line (h.perm.mem_iff.2 hline), hsimilar.states_perm, hsimilar.get?_eq,
    hsimilar.stats_eq, hsimilar.renumbers, fun start => ⟨?_, ?_⟩⟩
  · intro e
    exact hsimilar.ofStart_eq_error_iff start e
  · intro m twin hm htwin firings whole htriggers σ τ run run' shared shared'
    have halike := Machine.alike_ofStart hsimilar.wellFormed hsimilar.wellFormed_other hm htwin
    obtain ⟨hrefusals, hreached⟩ := (Machine.lockstep_alike hsimilar).refusal?_fireEach halike
      htriggers run run' shared shared'
    refine ⟨hrefusals, hreached.state_eq, hreached.trail_eq, ?_⟩
    rw [Machine.path_eq_trail, Machine.path_eq_trail, hreached.trail_eq]

/-- The states of a cycle take other positions when its last line comes first. -/
theorem Table.build_of_reordered_of_cycle :
    let now : Timestamp := .ofSecondOfDay (.firstOfYear 2024) 0 0
    let go : Line := ⟨1, ⟨true, true⟩, .text "A", .text "B", some (.text "go")⟩
    let on : Line := ⟨2, ⟨true, false⟩, .text "B", .text "C", some (.text "on")⟩
    let back : Line := ⟨3, ⟨true, false⟩, .text "C", .text "A", none⟩
    let firings : List Firing := ["go", "off", "on", "off"].map (⟨·, [], now⟩)
    ∃ t other m twin, Table.build [go, on, back] = .ok t ∧
      Table.build [back, go, on] = .ok other ∧
      t.states = [.text "A", .text "B", .text "C"] ∧
      other.states = [.text "C", .text "A", .text "B"] ∧
      Stats.ofTable t = Stats.ofTable other ∧ t.Renumbers other ∧
      Machine.ofStart t (.text "A") = .ok m ∧ Machine.ofStart other (.text "A") = .ok twin ∧
      ∀ {σ : Type} (run : Behaviors σ) (shared : σ),
        let fired := ((twin.fireEach run firings).run shared).1
        fired.1.map Machine.refusal? = [none, some (.noTransition (.text "B") "off"), none, none] ∧
          fired.2.path = [.text "A", .text "B", .text "C", .text "A"] := by
  intro now go on back firings
  let a : Dictionary := ⟨[("go", .leadingTo (.text "B") (some (.text "go")))]⟩
  let b : Dictionary := ⟨[("go", .leadingTo (.text "A") (some (.text "go"))),
    ("on", .leadingTo (.text "C") (some (.text "on")))]⟩
  let c : Dictionary := ⟨[("", .leadingTo (.text "A") none)]⟩
  let t : Table := ⟨[(.text "A", a), (.text "B", b), (.text "C", c)]⟩
  let turned : Table := ⟨[(.text "C", c), (.text "A", a), (.text "B", b)]⟩
  have hreordered : Line.Reordered [go, on, back] [back, go, on] := by
    refine ⟨by decide, ?_⟩
    intro state
    by_cases hC : Ident.text "C" = state
    · subst hC
      rfl
    · have hback : back.hasSource state = false := by simp [Line.hasSource, Line.moves, back, hC]
      simp only [List.filter_cons, hback, List.filter_nil, Bool.false_eq_true, if_false]
  have hbuild : Table.build [go, on, back] = .ok t := by decide +kernel
  have hturned : Table.build [back, go, on] = .ok turned := by decide +kernel
  obtain ⟨other, hother, -, -, hstats, hrenumbers, hruns⟩ := build_of_reordered hreordered hbuild
  obtain rfl : turned = other := Except.ok.inj (hturned.symm.trans hother)
  let m : Machine := ⟨t, 0, 0, .text "A", .empty⟩
  let twin : Machine := ⟨turned, 1, 1, .text "A", .empty⟩
  have hm : Machine.ofStart t (.text "A") = .ok m := rfl
  have htwin : Machine.ofStart turned (.text "A") = .ok twin := rfl
  refine ⟨t, turned, m, twin, hbuild, hturned, rfl, rfl, hstats, hrenumbers, hm, htwin, ?_⟩
  intro σ run shared
  obtain ⟨hrefusals, -, -, hpath⟩ :=
    (hruns (.text "A")).2 m twin hm htwin firings firings rfl run run shared shared
  exact ⟨hrefusals.symm.trans rfl, hpath.symm.trans rfl⟩

end StateDiagram
