import StateDiagram.Proofs.Machine

/-!
# The course of a machine

A machine that is fired takes a course that the table and the triggers decide.  Arguments, clock
and callables have no say in it: they only make the outputs and the times of the steps.  Machines
that keep step with each other trigger by trigger are refused at the same firings of a run.
-/

namespace StateDiagram

/-- What a machine has done and where it is, without the times of its steps. -/
structure Course where
  table : Table
  start : Nat
  current : Nat
  state : Ident
  /-- Source, target and trigger key of each step. -/
  moves : List (Nat × Nat × String)
  deriving DecidableEq, Repr

/-- A request without its time. -/
def Firing.ask (firing : Firing) : String × List Value := (firing.trigger, firing.args)

namespace Machine

def course (m : Machine) : Course :=
  ⟨m.table, m.start, m.current, m.state,
    m.history.steps.map fun step => (step.source, step.target, step.trigger)⟩

/-- Why a firing was refused; none if it was not. -/
def refusal? : Except MachineError Value → Option MachineError
  | .ok _ => none
  | .error e => some e

variable {m other : Machine}

/-- Machines in the relation take the same entry and stay in it, or are refused for the same
reason. -/
structure Lockstep (R : Machine → Machine → Prop) : Prop where
  advance : ∀ {m other : Machine}, R m other → ∀ (trigger : String) (now later : Timestamp),
    (∃ e, m.advance trigger now = .error e ∧ other.advance trigger later = .error e) ∨
    ∃ moved again entry, m.advance trigger now = .ok (moved, entry) ∧
      other.advance trigger later = .ok (again, entry) ∧ R moved again

theorem lockstep_course : Lockstep fun m other => m.course = other.course := by
  constructor
  intro m other h trigger now later
  obtain ⟨table, start, current, state, ⟨steps⟩⟩ := m
  obtain ⟨table', start', current', state', ⟨steps'⟩⟩ := other
  simp only [course, Course.mk.injEq] at h
  obtain ⟨rfl, rfl, rfl, rfl, hmoves⟩ := h
  simp only [advance, lookup?, dictionary?]
  cases (table.dictionary? current).bind (·.lookup? trigger) with
  | none => exact .inl ⟨_, rfl, rfl⟩
  | some found =>
      obtain ⟨key, entry⟩ := found
      cases hposition : table.position? entry.next with
      | none =>
          exact .inl ⟨.unknownState entry.next, by simp only [hposition], by simp only [hposition]⟩
      | some next =>
          refine .inr
            ⟨_, _, entry, by simp only [hposition]; rfl, by simp only [hposition]; rfl, ?_⟩
          simp [course, History.record, hmoves]

/-! ## Firing in lockstep -/

section Firing

variable {σ τ : Type} {R : Machine → Machine → Prop}

/-- With the same callables, arguments and shared state, the outputs are the same as well. -/
theorem fire_congr (h : m.course = other.course) (run : Behaviors σ) (trigger : String)
    (args : List Value) (now later : Timestamp) (shared : σ) :
    let fired := (m.fire run trigger args now).run shared
    let again := (other.fire run trigger args later).run shared
    fired.1.1 = again.1.1 ∧ fired.1.2.course = again.1.2.course ∧ fired.2 = again.2 := by
  obtain ⟨e, hm, hother⟩ | ⟨moved, again, entry, hm, hother, hcourse⟩ :=
    lockstep_course.advance h trigger now later
  · rw [run_fire_of_advance_eq_error run args now shared hm,
      run_fire_of_advance_eq_error run args later shared hother]
    exact ⟨rfl, h, rfl⟩
  · rw [run_fire_of_advance_eq_ok run args now shared hm,
      run_fire_of_advance_eq_ok run args later shared hother]
    exact ⟨rfl, hcourse, rfl⟩

/-- Whatever is called with whatever arguments, the firing succeeds or fails the same way. -/
theorem Lockstep.refusal?_fire (hR : Lockstep R) (h : R m other) (run : Behaviors σ)
    (run' : Behaviors τ) (trigger : String) (args args' : List Value) (now later : Timestamp)
    (shared : σ) (shared' : τ) :
    let fired := ((m.fire run trigger args now).run shared).1
    let again := ((other.fire run' trigger args' later).run shared').1
    refusal? fired.1 = refusal? again.1 ∧ R fired.2 again.2 := by
  obtain ⟨e, hm, hother⟩ | ⟨moved, again, entry, hm, hother, hmoved⟩ :=
    hR.advance h trigger now later
  · rw [run_fire_of_advance_eq_error run args now shared hm,
      run_fire_of_advance_eq_error run' args' later shared' hother]
    exact ⟨rfl, h⟩
  · rw [run_fire_of_advance_eq_ok run args now shared hm,
      run_fire_of_advance_eq_ok run' args' later shared' hother]
    exact ⟨rfl, hmoved⟩

/-- The results of all requests in turn, those refused included, and the machine after them. -/
def fireEach (run : Behaviors σ) : Machine → List Firing →
    StateM σ (List (Except MachineError Value) × Machine)
  | m, [] => pure ([], m)
  | m, firing :: rest => do
      let (result, moved) ← m.fire run firing.trigger firing.args firing.now
      let (results, reached) ← fireEach run moved rest
      pure (result :: results, reached)

theorem run_fireEach_cons (run : Behaviors σ) (m : Machine) (firing : Firing)
    (rest : List Firing) (shared : σ) :
    (fireEach run m (firing :: rest)).run shared =
      let fired := (m.fire run firing.trigger firing.args firing.now).run shared
      let rested := (fireEach run fired.1.2 rest).run fired.2
      ((fired.1.1 :: rested.1.1, rested.1.2), rested.2) := rfl

theorem fireEach_congr {firings again : List Firing} (h : m.course = other.course)
    (hask : firings.map Firing.ask = again.map Firing.ask) (run : Behaviors σ) (shared : σ) :
    let fired := (fireEach run m firings).run shared
    let whole := (fireEach run other again).run shared
    fired.1.1 = whole.1.1 ∧ fired.1.2.course = whole.1.2.course ∧ fired.2 = whole.2 := by
  induction firings generalizing again m other shared with
  | nil =>
      obtain rfl : again = [] := List.map_eq_nil_iff.1 hask.symm
      exact ⟨rfl, h, rfl⟩
  | cons firing rest ih =>
      obtain ⟨later, later_rest, rfl, hfirst, hrest⟩ := List.map_eq_cons_iff.1 hask.symm
      obtain ⟨htrigger, hargs⟩ := Prod.mk.inj hfirst
      rw [run_fireEach_cons, run_fireEach_cons, htrigger, hargs]
      obtain ⟨hresult, hcourse, hshared⟩ :=
        fire_congr h run firing.trigger firing.args firing.now later.now shared
      let left := ((other.fire run firing.trigger firing.args later.now).run shared).2
      obtain ⟨hresults, hreached⟩ := ih hcourse hrest.symm left
      -- Both runs hand on the same shared state, so the rest of them is compared from there.
      simp only [hshared, hresult]
      exact ⟨congrArg _ hresults, hreached⟩

theorem Lockstep.refusal?_fireEach (hR : Lockstep R) (h : R m other) {firings again : List Firing}
    (htriggers : firings.map Firing.trigger = again.map Firing.trigger) (run : Behaviors σ)
    (run' : Behaviors τ) (shared : σ) (shared' : τ) :
    let fired := ((fireEach run m firings).run shared).1
    let whole := ((fireEach run' other again).run shared').1
    fired.1.map refusal? = whole.1.map refusal? ∧ R fired.2 whole.2 := by
  induction firings generalizing again m other shared shared' with
  | nil =>
      obtain rfl : again = [] := List.map_eq_nil_iff.1 htriggers.symm
      exact ⟨rfl, h⟩
  | cons firing rest ih =>
      obtain ⟨later, later_rest, rfl, hfirst, hrest⟩ := List.map_eq_cons_iff.1 htriggers.symm
      rw [run_fireEach_cons, run_fireEach_cons, hfirst]
      obtain ⟨hrefusal, hmoved⟩ := hR.refusal?_fire h run run' firing.trigger firing.args
        later.args firing.now later.now shared shared'
      obtain ⟨hrefusals, hreached⟩ := ih hmoved hrest.symm
        ((m.fire run firing.trigger firing.args firing.now).run shared).2
        ((other.fire run' firing.trigger later.args later.now).run shared').2
      refine ⟨?_, hreached⟩
      rw [List.map_cons, List.map_cons, hrefusal]
      exact congrArg _ hrefusals

end Firing

end Machine

end StateDiagram
