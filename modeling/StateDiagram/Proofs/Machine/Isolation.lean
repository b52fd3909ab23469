import Mathlib.Logic.Function.Basic
import StateDiagram.Proofs.Machine.Course

/-!
# Machines side by side

Machines that are used in turn, in any order, share what the callables keep, but each of them takes
the course that it takes when it is fired alone.
-/

namespace StateDiagram

/-- What is asked of one machine. -/
inductive Use where
  | fire (firing : Firing)
  | call (args : List Value)
  | construct (args : List Value)

inductive Answer where
  | fired (result : Except MachineError Value)
  | called (value : Value)
  | constructed (value : Option Value)

def Use.trigger? : Use → Option String
  | .fire firing => some firing.trigger
  | _ => none

def Answer.fired? : Answer → Option (Except MachineError Value)
  | .fired result => some result
  | _ => none

namespace Machine

variable {ι σ τ : Type} [DecidableEq ι]

def use (run : Behaviors σ) (m : Machine) : Use → StateM σ (Answer × Machine)
  | .fire firing => do
      let (result, moved) ← m.fire run firing.trigger firing.args firing.now
      pure (.fired result, moved)
  | .call args => do
      let value ← run.apply m.state args
      pure (.called value, m)
  | .construct args => do
      let value ← run.construct m.state args
      pure (.constructed value, m)

/-- The answers to all requests in turn, each with the machine it was made to, and the machines
after them. -/
def interleave (run : Behaviors σ) : (ι → Machine) → List (ι × Use) →
    StateM σ (List (ι × Answer) × (ι → Machine))
  | machines, [] => pure ([], machines)
  | machines, (i, request) :: rest => do
      let (answer, after) ← (machines i).use run request
      let (answers, reached) ← interleave run (Function.update machines i after) rest
      pure ((i, answer) :: answers, reached)

def triggersAt (i : ι) (schedule : List (ι × Use)) : List String :=
  schedule.filterMap fun (j, request) => if j = i then request.trigger? else none

def resultsAt (i : ι) (answers : List (ι × Answer)) : List (Except MachineError Value) :=
  answers.filterMap fun (j, answer) => if j = i then answer.fired? else none

theorem run_interleave_cons (run : Behaviors σ) (machines : ι → Machine) (i : ι) (request : Use)
    (rest : List (ι × Use)) (shared : σ) :
    (interleave run machines ((i, request) :: rest)).run shared =
      let used := ((machines i).use run request).run shared
      let rested := (interleave run (Function.update machines i used.1.2) rest).run used.2
      (((i, used.1.1) :: rested.1.1, rested.1.2), rested.2) := rfl

theorem run_use_fire (run : Behaviors σ) (m : Machine) (firing : Firing) (shared : σ) :
    (m.use run (.fire firing)).run shared =
      let fired := (m.fire run firing.trigger firing.args firing.now).run shared
      ((.fired fired.1.1, fired.1.2), fired.2) := rfl

theorem interleave_congr {machines : ι → Machine} {schedule : List (ι × Use)} {i : ι}
    {m : Machine} (h : (machines i).course = m.course) {firings : List Firing}
    (hfirings : firings.map Firing.trigger = triggersAt i schedule) (run : Behaviors σ)
    (run' : Behaviors τ) (shared : σ) (shared' : τ) :
    let together := ((interleave run machines schedule).run shared).1
    let alone := ((fireEach run' m firings).run shared').1
    (together.2 i).course = alone.2.course ∧
      (resultsAt i together.1).map refusal? = alone.1.map refusal? := by
  induction schedule generalizing machines m firings shared shared' with
  | nil =>
      obtain rfl : firings = [] := by simpa [triggersAt] using hfirings
      exact ⟨h, rfl⟩
  | cons entry rest ih =>
      obtain ⟨j, request⟩ := entry
      rw [run_interleave_cons]
      have hself : ∀ after : Machine, (Function.update machines j after j).course = after.course :=
        fun after => congrArg course (Function.update_self j after machines)
      by_cases hj : j = i
      · subst hj
        simp only [triggersAt, List.filterMap_cons, if_true] at hfirings
        simp only [resultsAt, List.filterMap_cons, if_true]
        cases request with
        | fire firing =>
            obtain ⟨first, others, rfl, hfirst, hothers⟩ := List.map_eq_cons_iff.1 hfirings
            obtain ⟨hrefusal, hcourse⟩ := lockstep_course.refusal?_fire h run run'
              firing.trigger firing.args first.args firing.now first.now shared shared'
            rw [run_use_fire, run_fireEach_cons, hfirst]
            obtain ⟨hreached, hresults⟩ :=
              ih ((hself _).trans hcourse) hothers _ _
            refine ⟨hreached, ?_⟩
            rw [List.map_cons, ← hrefusal]
            exact congrArg _ hresults
        | call args => exact ih ((hself _).trans h) hfirings _ _
        | construct args => exact ih ((hself _).trans h) hfirings _ _
      · -- Another machine moves, and this one is where it was.
        simp only [triggersAt, List.filterMap_cons, if_neg hj] at hfirings
        simp only [resultsAt, List.filterMap_cons, if_neg hj]
        exact ih ((congrArg course (Function.update_of_ne (Ne.symm hj) _ machines)).trans h)
          hfirings _ _

/-- Each of the machines ends where its own firings alone lead it, and every one of its firings
succeeds or fails as it does there, with whatever arguments, clock and callables. -/
theorem interleave_isolated (machines : ι → Machine) (schedule : List (ι × Use))
    (run : Behaviors σ) (shared : σ) (i : ι) (run' : Behaviors τ) (shared' : τ)
    (firings : List Firing) (hfirings : firings.map Firing.trigger = triggersAt i schedule) :
    let together := ((interleave run machines schedule).run shared).1
    let alone := ((fireEach run' (machines i) firings).run shared').1
    (together.2 i).course = alone.2.course ∧
      (resultsAt i together.1).map refusal? = alone.1.map refusal? :=
  interleave_congr rfl hfirings run run' shared shared'

/-- Two machines share a callable that counts its calls.  One of them is also called, and is fired
beyond its last transition; alone it has other arguments and a callable that returns nothing. -/
theorem interleave_isolated_of_count :
    let count : Behaviors Nat := fun _ _ => do
      modify (· + 1)
      return .ofInt (← get)
    let nothing : Behaviors Unit := fun _ _ => pure .null
    let now : Timestamp := .ofSecondOfDay (.firstOfYear 2024) 0 0
    let go : Firing := ⟨"go", [.null], now⟩
    let stop : Firing := ⟨"stop", [], now⟩
    let schedule := [(true, .fire go), (false, .fire go), (true, .call []), (true, .fire stop),
      (false, .construct []), (true, .fire stop)]
    ∃ t m, Table.build [⟨1, ⟨true, false⟩, .text "A", .behavior ⟨0, "count"⟩, some (.text "go")⟩,
        ⟨2, ⟨true, false⟩, .behavior ⟨0, "count"⟩, .text "A", none⟩] = .ok t ∧
      ofStart t (.text "A") = .ok m ∧
      [⟨"go", [], now⟩, stop, stop].map Firing.trigger = triggersAt true schedule ∧
      let together := ((interleave count (fun _ => m) schedule).run 0).1
      let alone := ((fireEach nothing m [⟨"go", [], now⟩, stop, stop]).run ()).1
      (together.2 true).course = alone.2.course ∧
        (resultsAt true together.1).map refusal? =
          [none, none, some (.noTransition (.text "A") "stop")] := by
  intro count nothing now go stop schedule
  let t : Table := ⟨[
    (.text "A", ⟨[("go", .leadingTo (.behavior ⟨0, "count"⟩) (some (.text "go")))]⟩),
    (.behavior ⟨0, "count"⟩, ⟨[("", .leadingTo (.text "A") none)]⟩)]⟩
  let m : Machine := ⟨t, 0, 0, .text "A", .empty⟩
  have hfirings : [⟨"go", [], now⟩, stop, stop].map Firing.trigger = triggersAt true schedule := rfl
  obtain ⟨hcourse, hresults⟩ :=
    interleave_isolated (fun _ => m) schedule count 0 true nothing () _ hfirings
  exact ⟨t, m, rfl, rfl, hfirings, hcourse, hresults.trans rfl⟩

end Machine

end StateDiagram
