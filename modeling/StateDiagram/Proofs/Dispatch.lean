import StateDiagram.Proofs.Machine

/-!
# Running an entry

An entry calls at most two callables, that of its next state and then that of its event.  Which of
them there are can be told from the state and the event alone, and the action that is stored with
the entry says the same in every table that a diagram builds.
-/

namespace StateDiagram

variable {σ : Type}

/-! ## Calls -/

structure Call where
  callable : Callable
  args : List Value

namespace Behaviors

/-- The same behaviors, which also write down every call. -/
def logged (run : Behaviors σ) : Behaviors (σ × List Call) := fun f args => do
  let (shared, calls) ← get
  let (value, after) := (run f args).run shared
  set (after, calls ++ [⟨f, args⟩])
  return value

/-- Calls the callable, if there is one.  The result of no call is null. -/
def invoke (run : Behaviors σ) (f? : Option Callable) (args : List Value) : StateM σ Value :=
  match f? with
  | some f => run f args
  | none => pure .null

end Behaviors

/-- What comes of a callable that may be absent. -/
inductive Invoked (run : Behaviors σ) (args : List Value) (before : σ) :
    Option Callable → Value → List Call → σ → Prop where
  | absent : Invoked run args before none .null [] before
  | once {f : Callable} {value : Value} {after : σ}
      (h : (run f args).run before = (value, after)) :
      Invoked run args before (some f) value [⟨f, args⟩] after

/-- What comes of an entry, told from its next state and its event. -/
inductive Dispatched (run : Behaviors σ) (next : Ident) (event : Option Ident) (args : List Value)
    (before : σ) : Value → List Call → σ → Prop where
  | plain {s : Scalar} (hnext : next = .scalar s) (hevent : event.bind Ident.callable? = none) :
      Dispatched run next event args before s.toValue [] before
  | composed {result output answer : Value} {passed : List Value} {first second : List Call}
      {between after : σ}
      (hcallable : next.callable? ≠ none ∨ event.bind Ident.callable? ≠ none)
      (hfirst : Invoked run args before next.callable? result first between)
      (hitems : ∀ items, result = .list items → passed = items)
      (hargs : (∀ items, result ≠ .list items) → passed = args)
      (hsecond : Invoked run passed between (event.bind Ident.callable?) output second after)
      (houtput : output ≠ .null → answer = output) (hresult : output = .null → answer = result) :
      Dispatched run next event args before answer (first ++ second) after

/-! ## The stored action -/

theorem Value.isNull_iff {value : Value} : value.isNull = true ↔ value = .null := by
  cases value <;> simp [isNull]

namespace Entry

variable {next : Ident} {event : Option Ident}

theorem isCallable_or_iff : (next.isCallable || event.any Ident.isCallable) = true ↔
    next.callable? ≠ none ∨ event.bind Ident.callable? ≠ none := by
  cases event <;> simp [Ident.isCallable, Option.isSome_iff_ne_none]

theorem leadingTo_of_callable (h : next.callable? ≠ none ∨ event.bind Ident.callable? ≠ none) :
    leadingTo next event = ⟨next, event, .compose⟩ := by
  rw [leadingTo, if_pos (isCallable_or_iff.2 h)]

theorem leadingTo_of_not_callable (hnext : next.callable? = none)
    (hevent : event.bind Ident.callable? = none) :
    leadingTo next event = ⟨next, event, .label⟩ := by
  rw [leadingTo, if_neg fun h => (isCallable_or_iff.1 h).elim (· hnext) (· hevent)]

end Entry

namespace Behaviors

variable (run : Behaviors σ) (args : List Value) (shared : σ) (log : List Call)

theorem run_dispatch_compose (next : Ident) (event : Option Ident) :
    (run.dispatch ⟨next, event, .compose⟩ args).run shared =
      let entered := (run.invoke next.callable? args).run shared
      let answered :=
        (run.invoke (event.bind Ident.callable?) (argsAfter entered.1 args)).run entered.2
      (if answered.1.isNull then entered.1 else answered.1, answered.2) := by
  simp only [dispatch, invoke]
  cases next.callable? <;> cases event.bind Ident.callable? <;> rfl

/-! ## Writing calls down changes nothing else -/

theorem run_logged (f : Callable) :
    (run.logged f args).run (shared, log) =
      let called := (run f args).run shared
      (called.1, called.2, log ++ [⟨f, args⟩]) := rfl

theorem run_logged_invoke (f? : Option Callable) :
    (run.logged.invoke f? args).run (shared, log) =
      let called := (run.invoke f? args).run shared
      (called.1, called.2, log ++ (f?.map fun f => ⟨f, args⟩).toList) := by
  cases f? with
  | none =>
      rw [Option.map_none, Option.toList_none, List.append_nil]
      rfl
  | some f => exact run.run_logged args shared log f

theorem run_dispatch_eq (entry : Entry) :
    (run.dispatch entry args).run shared =
      let called := (run.logged.dispatch entry args).run (shared, log)
      (called.1, called.2.1) := by
  obtain ⟨next, event, action⟩ := entry
  cases action with
  | label => rfl
  | compose => simp only [run_dispatch_compose, run_logged_invoke]

end Behaviors

/-! ## What is called -/

variable {run : Behaviors σ} {args : List Value} {before after : σ} {value answer : Value}
  {calls : List Call}

theorem Invoked.run_invoke {f? : Option Callable}
    (h : Invoked run args before f? value calls after) (log : List Call) :
    (run.logged.invoke f? args).run (before, log) = (value, after, log ++ calls) := by
  rw [Behaviors.run_logged_invoke]
  cases h with
  | absent => simp [Behaviors.invoke]; rfl
  | once h => simp [Behaviors.invoke, h]

theorem exists_invoked (run : Behaviors σ) (args : List Value) (before : σ)
    (f? : Option Callable) :
    ∃ value calls after, Invoked run args before f? value calls after := by
  cases f? with
  | none => exact ⟨_, _, _, .absent⟩
  | some f => exact ⟨_, _, _, .once rfl⟩

theorem argsAfter_eq_iff {result : Value} {passed : List Value} :
    Behaviors.argsAfter result args = passed ↔
      (∀ items, result = .list items → passed = items) ∧
        ((∀ items, result ≠ .list items) → passed = args) := by
  cases result <;> simp [Behaviors.argsAfter, eq_comm]

namespace Dispatched

variable {next : Ident} {event : Option Ident}

theorem run_dispatch (h : Dispatched run next event args before answer calls after)
    (log : List Call) :
    (run.logged.dispatch (.leadingTo next event) args).run (before, log) =
      (answer, after, log ++ calls) := by
  cases h with
  | plain hnext hevent =>
      subst hnext
      rw [Entry.leadingTo_of_not_callable rfl hevent, List.append_nil]
      rfl
  | @composed result output _ passed first second between _ hcallable hfirst hitems hargs hsecond
      houtput hresult =>
      rw [Entry.leadingTo_of_callable hcallable]
      simp only [Behaviors.run_dispatch_compose, hfirst.run_invoke,
        argsAfter_eq_iff.2 ⟨hitems, hargs⟩, hsecond.run_invoke, List.append_assoc]
      by_cases hnull : output = .null
      · simp [hnull, hresult hnull, Value.isNull]
      · simp [Value.isNull_iff, hnull, houtput hnull]

/-- Every entry can be run. -/
theorem exists_of (run : Behaviors σ) (args : List Value) (before : σ) (next : Ident)
    (event : Option Ident) :
    ∃ answer calls after, Dispatched run next event args before answer calls after := by
  by_cases hcallable : next.callable? ≠ none ∨ event.bind Ident.callable? ≠ none
  · obtain ⟨result, first, between, hfirst⟩ := exists_invoked run args before next.callable?
    obtain ⟨hitems, hargs⟩ := argsAfter_eq_iff.1 (rfl : Behaviors.argsAfter result args = _)
    obtain ⟨output, second, after, hsecond⟩ := exists_invoked run
      (Behaviors.argsAfter result args) between (event.bind Ident.callable?)
    by_cases hnull : output = .null
    · exact ⟨result, _, _, .composed hcallable hfirst hitems hargs hsecond
        (fun h => absurd hnull h) fun _ => rfl⟩
    · exact ⟨output, _, _, .composed hcallable hfirst hitems hargs hsecond
        (fun _ => rfl) fun h => absurd h hnull⟩
  · rw [not_or, not_not, not_not] at hcallable
    obtain ⟨hnext, hevent⟩ := hcallable
    cases next with
    | scalar s => exact ⟨_, _, _, .plain rfl hevent⟩
    | behavior f => contradiction
    | constructor f => contradiction

/-- Running the entry does this and nothing else. -/
theorem run_dispatch_eq_iff :
    (run.logged.dispatch (.leadingTo next event) args).run (before, []) = (answer, after, calls) ↔
      Dispatched run next event args before answer calls after := by
  constructor
  · intro h
    obtain ⟨found, made, left, hfound⟩ := exists_of run args before next event
    cases h.symm.trans (hfound.run_dispatch [])
    exact hfound
  · exact fun h => h.run_dispatch []

end Dispatched

namespace Table

variable {t : Table}

theorem WellFormed.eq_leadingTo (h : t.WellFormed) {row : Ident × Dictionary} (hrow : row ∈ t.rows)
    {key : String} {entry : Entry} (hentry : (key, entry) ∈ row.2.entries) :
    entry = .leadingTo entry.next entry.event :=
  (h.dictionary row hrow).action_eq hentry

/-- Every entry of a built table, run by itself or by a machine that takes it, does what its next
state and its event say, whatever action is stored with it. -/
theorem dispatch_composes {lines : List Line} (hbuild : build lines = .ok t)
    {row : Ident × Dictionary} (hrow : row ∈ t.rows) {key : String} {entry : Entry}
    (hentry : (key, entry) ∈ row.2.entries) (run : Behaviors σ) (args : List Value) (shared : σ) :
    (∀ answer calls after,
      (run.logged.dispatch entry args).run (shared, []) = (answer, after, calls) ↔
        Dispatched run entry.next entry.event args shared answer calls after) ∧
    (∀ answer calls after, Dispatched run entry.next entry.event args shared answer calls after →
      (run.dispatch entry args).run shared = (answer, after)) ∧
    ∀ (m : Machine) (trigger : String) (now : Timestamp), m.table = t →
      m.lookup? trigger = some (key, entry) →
      ∃ moved, ∀ answer calls after,
        ((m.fire run.logged trigger args now).run (shared, []) =
            ((.ok answer, moved), after, calls) ↔
          Dispatched run entry.next entry.event args shared answer calls after) ∧
        (Dispatched run entry.next entry.event args shared answer calls after →
          (m.fire run trigger args now).run shared = ((.ok answer, moved), after)) := by
  have h := wellFormed_of_build hbuild
  have hlogged : ∀ answer calls after,
      (run.logged.dispatch entry args).run (shared, []) = (answer, after, calls) ↔
        Dispatched run entry.next entry.event args shared answer calls after := by
    intro answer calls after
    rw [h.eq_leadingTo hrow hentry]
    exact Dispatched.run_dispatch_eq_iff
  have hplain : ∀ answer calls after,
      Dispatched run entry.next entry.event args shared answer calls after →
        (run.dispatch entry args).run shared = (answer, after) := by
    intro answer calls after hdispatched
    rw [run.run_dispatch_eq args shared [], (hlogged answer calls after).2 hdispatched]
  refine ⟨hlogged, hplain, fun m trigger now htable hlookup => ?_⟩
  obtain ⟨n, hposition⟩ := Machine.exists_position?_of_lookup? h htable hlookup
  obtain ⟨moved, hadvance⟩ : ∃ moved, m.advance trigger now = .ok (moved, entry) :=
    ⟨_, Machine.advance_eq_ok_iff.2 ⟨key, n, hlookup, htable ▸ hposition, rfl⟩⟩
  refine ⟨moved, fun answer calls after => ⟨?_, fun hdispatched => ?_⟩⟩
  · rw [Machine.run_fire_of_advance_eq_ok run.logged args now (shared, []) hadvance, ← hlogged]
    obtain ⟨found, left, made⟩ := (run.logged.dispatch entry args).run (shared, [])
    constructor <;> (rintro ⟨⟩; rfl)
  · rw [Machine.run_fire_of_advance_eq_ok run args now shared hadvance,
      hplain answer calls after hdispatched]

/-- The later line has a callable in place of the text `load`, and a state that counts its visits.
What the state returns goes to the event, which has nothing to add. -/
theorem dispatch_composes_of_load :
    let load : Callable := ⟨0, "load"⟩
    let loaded : Callable := ⟨1, "Loaded"⟩
    let run : Behaviors Nat := fun f _ =>
      modifyGet fun (n : Nat) => (if f = loaded then .list [.ofInt (n + 1)] else .null, n + 1)
    let entry : Entry := .leadingTo (.behavior loaded) (some (.behavior load))
    ∃ t row, Table.build [⟨1, ⟨true, false⟩, .text "Idle", .text "Idle", some (.text "load")⟩,
        ⟨2, ⟨true, false⟩, .text "Idle", .behavior loaded, some (.behavior load)⟩] = .ok t ∧
      row ∈ t.rows ∧ ("load", entry) ∈ row.2.entries ∧
      Dispatched run (.behavior loaded) (some (.behavior load)) [.text "x"] 4
        (.list [.ofInt 5]) [⟨loaded, [.text "x"]⟩, ⟨load, [.ofInt 5]⟩] 6 := by
  intro load loaded run entry
  let t : Table := ⟨[(.text "Idle", ⟨[("load", entry)]⟩), (.behavior loaded, .empty)]⟩
  have hbuild : Table.build [⟨1, ⟨true, false⟩, .text "Idle", .text "Idle", some (.text "load")⟩,
      ⟨2, ⟨true, false⟩, .text "Idle", .behavior loaded, some (.behavior load)⟩] = .ok t := rfl
  have hrow : (.text "Idle", ⟨[("load", entry)]⟩) ∈ t.rows := by simp [t]
  have hentry : ("load", entry) ∈ [("load", entry)] := by simp
  obtain ⟨hlogged, -, -⟩ := dispatch_composes hbuild hrow hentry run [.text "x"] 4
  exact ⟨t, _, hbuild, hrow, hentry, (hlogged _ _ _).1 rfl⟩

end Table

end StateDiagram
