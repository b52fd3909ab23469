import StateDiagram.Machine
import StateDiagram.Proofs.Index

/-!
# Runs of a machine

Where a trigger leads is a matter of the table and the position alone.  A machine that stands on a
state of its table makes every such move and refuses every other trigger, whatever the callables
do.
-/

namespace StateDiagram

theorem Dictionary.get?_of_lookup? {d : Dictionary} {trigger key : String} {entry : Entry}
    (h : d.lookup? trigger = some (key, entry)) : d.get? key = some entry := by
  rcases Option.or_eq_some_iff.1 h with hown | ⟨-, hdefault⟩
  · obtain ⟨e, he, heq⟩ := Option.map_eq_some_iff.1 hown
    cases heq
    exact he
  · obtain ⟨e, he, heq⟩ := Option.map_eq_some_iff.1 hdefault
    cases heq
    exact he

theorem Dictionary.WellFormed.mem_of_lookup? {d : Dictionary} (h : d.WellFormed)
    {trigger key : String} {entry : Entry} (hlookup : d.lookup? trigger = some (key, entry)) :
    (key, entry) ∈ d.entries :=
  h.get?_eq_some_iff.1 (d.get?_of_lookup? hlookup)

/-! ## Moves -/

namespace Table

/-- The position to which a trigger leads; none if no entry answers it. -/
def next? (t : Table) (position : Nat) (trigger : String) : Option Nat := do
  let d ← t.dictionary? position
  let (_, entry) ← d.lookup? trigger
  t.position? entry.next

def defaultNext? (t : Table) (position : Nat) : Option Nat := do
  let d ← t.dictionary? position
  let entry ← d.default?
  t.position? entry.next

variable {t : Table} {position : Nat} {d : Dictionary} {trigger : String}

theorem next?_of_get? (hd : t.dictionary? position = some d) {entry : Entry}
    (hget : d.get? trigger = some entry) : t.next? position trigger = t.position? entry.next := by
  simp [next?, hd, d.lookup?_of_get? hget]

theorem next?_of_get?_eq_none (hd : t.dictionary? position = some d)
    (hget : d.get? trigger = none) : t.next? position trigger = t.defaultNext? position := by
  cases hdefault : d.default? <;>
    simp [next?, defaultNext?, hd, Dictionary.lookup?, hget, hdefault]

theorem next?_of_dictionary?_eq_none (hd : t.dictionary? position = none) :
    t.next? position trigger = none := by
  simp [next?, hd]

theorem defaultNext?_of_dictionary?_eq_none (hd : t.dictionary? position = none) :
    t.defaultNext? position = none := by
  simp [defaultNext?, hd]

end Table

namespace Machine

variable {t : Table} {m : Machine} {trigger : String}

/-- The machine runs on the table and its current position is that of its current state. -/
structure RunsOn (t : Table) (m : Machine) : Prop where
  table_eq : m.table = t
  state?_current : t.state? m.current = some m.state

theorem runsOn_ofStart (h : t.WellFormed) {start : Ident} (hm : ofStart t start = .ok m) :
    m.RunsOn t := by
  unfold ofStart at hm
  cases hposition : t.position? start with
  | none =>
      rw [hposition] at hm
      contradiction
  | some position =>
      rw [hposition] at hm
      cases hm
      exact ⟨rfl, h.position?_eq_some_iff.1 hposition⟩

theorem advance_eq_ok_iff {moved : Machine} {entry : Entry} {now : Timestamp} :
    m.advance trigger now = .ok (moved, entry) ↔
      ∃ key next, m.lookup? trigger = some (key, entry) ∧
        m.table.position? entry.next = some next ∧
        moved = { m with
          current := next
          state := entry.next
          history := m.history.record ⟨m.current, next, key, now⟩ } := by
  constructor
  · intro h
    unfold advance at h
    split at h
    · contradiction
    · next key found hlookup =>
        split at h
        · contradiction
        · next n hposition =>
            cases h
            exact ⟨key, n, hlookup, hposition, rfl⟩
  · rintro ⟨key, next, hlookup, hposition, rfl⟩
    simp only [advance, hlookup, hposition]

theorem exists_position?_of_lookup? (h : t.WellFormed) (htable : m.table = t) {key : String}
    {entry : Entry} (hlookup : m.lookup? trigger = some (key, entry)) :
    ∃ n, t.position? entry.next = some n := by
  obtain ⟨d, hd, hfound⟩ := Option.bind_eq_some_iff.1 hlookup
  rw [dictionary?, htable] at hd
  obtain ⟨state, hrow⟩ := Table.dictionary?_eq_some_iff.1 hd
  have hentry := (h.dictionary _ (List.mem_of_getElem? hrow)).mem_of_lookup? hfound
  obtain ⟨n, hn, -⟩ := h.exists_position?_next hd hentry
  exact ⟨n, hn⟩

theorem advance_of_next? (now : Timestamp) (htable : m.table = t) {n : Nat}
    (hnext : t.next? m.current trigger = some n) :
    ∃ key entry, m.lookup? trigger = some (key, entry) ∧ t.position? entry.next = some n ∧
      m.advance trigger now = .ok ({ m with
        current := n
        state := entry.next
        history := m.history.record ⟨m.current, n, key, now⟩ }, entry) := by
  obtain ⟨d, hd, hrest⟩ := Option.bind_eq_some_iff.1 hnext
  obtain ⟨⟨key, entry⟩, hlookup, hposition⟩ := Option.bind_eq_some_iff.1 hrest
  have hfound : m.lookup? trigger = some (key, entry) := by
    simp [lookup?, dictionary?, htable, hd, hlookup]
  exact ⟨key, entry, hfound, hposition,
    advance_eq_ok_iff.2 ⟨key, n, hfound, htable ▸ hposition, rfl⟩⟩

theorem advance_of_next?_eq_none (now : Timestamp) (h : t.WellFormed) (htable : m.table = t)
    (hnext : t.next? m.current trigger = none) :
    m.advance trigger now = .error (.noTransition m.state trigger) := by
  -- An entry that is found leads to a state of the table, so it would have a position.
  have hfound : m.lookup? trigger = none := by
    rw [Option.eq_none_iff_forall_ne_some]
    rintro ⟨key, entry⟩ hfound
    obtain ⟨n, hn⟩ := exists_position?_of_lookup? h htable hfound
    obtain ⟨d, hd, hlookup⟩ := Option.bind_eq_some_iff.1 hfound
    rw [dictionary?, htable] at hd
    simp [Table.next?, hd, hlookup, hn] at hnext
  simp only [advance, hfound]

/-! ## Firing -/

section Firing

variable {σ : Type} (run : Behaviors σ) (args : List Value) (now : Timestamp) (shared : σ)

theorem run_fire_of_advance_eq_ok {moved : Machine} {entry : Entry}
    (h : m.advance trigger now = .ok (moved, entry)) :
    (m.fire run trigger args now).run shared =
      let called := (run.dispatch entry args).run shared
      ((.ok called.1, moved), called.2) := by
  simp only [fire, h]
  rfl

theorem run_fire_of_advance_eq_error {e : MachineError}
    (h : m.advance trigger now = .error e) :
    (m.fire run trigger args now).run shared = ((.error e, m), shared) := by
  simp only [fire, h]
  rfl

theorem fire_of_advance_eq_ok {moved : Machine} {entry : Entry}
    (h : m.advance trigger now = .ok (moved, entry)) :
    ∃ output after, (m.fire run trigger args now).run shared = ((.ok output, moved), after) :=
  ⟨_, _, run_fire_of_advance_eq_ok run args now shared h⟩

theorem fire_of_next? (h : t.WellFormed) (hm : m.RunsOn t) {n : Nat}
    (hnext : t.next? m.current trigger = some n) :
    ∃ output moved after, (m.fire run trigger args now).run shared = ((.ok output, moved), after) ∧
      moved.RunsOn t ∧ moved.current = n := by
  obtain ⟨key, entry, -, hposition, hadvance⟩ := advance_of_next? now hm.table_eq hnext
  obtain ⟨output, after, hfire⟩ := fire_of_advance_eq_ok run args now shared hadvance
  have hstate := h.position?_eq_some_iff.1 hposition
  exact ⟨output, _, after, hfire, ⟨hm.table_eq, hstate⟩, rfl⟩

theorem fire_of_next?_eq_none (h : t.WellFormed) (htable : m.table = t)
    (hnext : t.next? m.current trigger = none) :
    (m.fire run trigger args now).run shared =
      ((.error (.noTransition m.state trigger), m), shared) :=
  run_fire_of_advance_eq_error run args now shared (advance_of_next?_eq_none now h htable hnext)

/-- The firing succeeded and the machine ended at the position. -/
def MovedTo (outcome : Except MachineError Value × Machine) (n : Nat) : Prop :=
  (∃ output, outcome.1 = .ok output) ∧ outcome.2.current = n

/-- The firing failed for want of a transition and the machine is what it was. -/
def Refused (m : Machine) (trigger : String) (outcome : Except MachineError Value × Machine) :
    Prop :=
  outcome = (.error (.noTransition m.state trigger), m)

theorem movedTo_fire_iff (h : t.WellFormed) (htable : m.table = t) {n : Nat} :
    MovedTo ((m.fire run trigger args now).run shared).1 n ↔
      t.next? m.current trigger = some n := by
  cases hnext : t.next? m.current trigger with
  | none =>
      rw [fire_of_next?_eq_none run args now shared h htable hnext]
      simp [MovedTo]
  | some k =>
      obtain ⟨key, entry, -, -, hadvance⟩ := advance_of_next? now htable hnext
      obtain ⟨output, after, hfire⟩ := fire_of_advance_eq_ok run args now shared hadvance
      rw [hfire]
      simp [MovedTo]

theorem refused_fire_iff (h : t.WellFormed) (htable : m.table = t) :
    Refused m trigger ((m.fire run trigger args now).run shared).1 ↔
      t.next? m.current trigger = none := by
  cases hnext : t.next? m.current trigger with
  | none =>
      rw [fire_of_next?_eq_none run args now shared h htable hnext]
      simp [Refused]
  | some k =>
      obtain ⟨key, entry, -, -, hadvance⟩ := advance_of_next? now htable hnext
      obtain ⟨output, after, hfire⟩ := fire_of_advance_eq_ok run args now shared hadvance
      rw [hfire]
      simp [Refused]

end Firing

end Machine

/-! ## Runs -/

structure Firing where
  trigger : String
  args : List Value
  now : Timestamp

namespace Machine

variable {σ : Type}

/-- The machine after all requests in turn, those that it refuses included. -/
def fireAll (run : Behaviors σ) : Machine → List Firing → StateM σ Machine
  | m, [] => pure m
  | m, firing :: rest => do
      let (_, moved) ← m.fire run firing.trigger firing.args firing.now
      fireAll run moved rest

theorem run_fireAll_cons (run : Behaviors σ) (m : Machine) (firing : Firing)
    (rest : List Firing) (shared : σ) :
    (fireAll run m (firing :: rest)).run shared =
      let fired := (m.fire run firing.trigger firing.args firing.now).run shared
      (fireAll run fired.1.2 rest).run fired.2 := rfl

/-- Every machine that is reached runs on the table, at the position to which the moves lead. -/
theorem runsOn_fireAll {t : Table} (h : t.WellFormed) {m : Machine} (hm : m.RunsOn t)
    (run : Behaviors σ) (firings : List Firing) (shared : σ) :
    let reached := ((fireAll run m firings).run shared).1
    reached.RunsOn t ∧
      reached.current = firings.foldl (fun p f => (t.next? p f.trigger).getD p) m.current := by
  induction firings generalizing m shared with
  | nil => exact ⟨hm, rfl⟩
  | cons firing firings ih =>
      rw [run_fireAll_cons, List.foldl_cons]
      cases hnext : t.next? m.current firing.trigger with
      | none =>
          rw [fire_of_next?_eq_none run firing.args firing.now shared h hm.table_eq hnext,
            Option.getD_none]
          exact ih hm shared
      | some n =>
          obtain ⟨output, moved, after, hfire, hmoved, hcurrent⟩ :=
            fire_of_next? run firing.args firing.now shared h hm hnext
          rw [hfire, Option.getD_some, ← hcurrent]
          exact ih hmoved after

end Machine

end StateDiagram
