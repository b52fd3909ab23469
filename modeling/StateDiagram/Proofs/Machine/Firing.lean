import StateDiagram.Proofs.Dispatch
import StateDiagram.Proofs.Machine.Acceptance

/-!
# What a firing does

A firing that finds an entry makes one move along it and records that one step.  A firing that finds
none leaves the machine as it was and calls nothing.  Nothing else can happen to a machine in use,
and a state is terminal exactly if no trigger at all finds an entry there.
-/

namespace StateDiagram

/-! ## Entries that answer -/

namespace Dictionary

/-- The entry under the key answers the trigger: its own one, or else the default entry. -/
inductive Answers (d : Dictionary) (trigger : String) : String → Entry → Prop where
  | own {entry : Entry} (h : d.get? trigger = some entry) : Answers d trigger trigger entry
  | default {entry : Entry} (hown : d.get? trigger = none) (h : d.default? = some entry) :
      Answers d trigger defaultKey entry

variable {d : Dictionary} {trigger key : String} {entry : Entry}

theorem lookup?_eq_some_iff :
    d.lookup? trigger = some (key, entry) ↔ d.Answers trigger key entry := by
  constructor
  · intro h
    rcases Option.or_eq_some_iff.1 h with hown | ⟨hown, hdefault⟩
    · obtain ⟨found, hfound, heq⟩ := Option.map_eq_some_iff.1 hown
      cases heq
      exact .own hfound
    · obtain ⟨found, hfound, heq⟩ := Option.map_eq_some_iff.1 hdefault
      cases heq
      exact .default (Option.map_eq_none_iff.1 hown) hfound
  · rintro (h | ⟨hown, h⟩)
    · exact lookup?_of_get? h
    · simp [lookup?, hown, h]

/-- The first entry of a dictionary answers its own key. -/
theorem isEmpty_iff : d.isEmpty = true ↔ ∀ trigger, d.lookup? trigger = none := by
  obtain ⟨entries⟩ := d
  cases entries with
  | nil => simp [isEmpty, lookup?, get?, default?]
  | cons first rest =>
      obtain ⟨key, entry⟩ := first
      have hfirst : (⟨(key, entry) :: rest⟩ : Dictionary).lookup? key = some (key, entry) :=
        lookup?_of_get? (by simp [get?])
      simp only [isEmpty, List.isEmpty_cons, Bool.false_eq_true, false_iff, not_forall]
      exact ⟨key, by simp [hfirst]⟩

end Dictionary

/-! ## One firing -/

namespace Machine

variable {t : Table} {m : Machine} {d : Dictionary} {trigger key : String} {entry : Entry}

theorem RunsOn.exists_dictionary? (hm : m.RunsOn t) : ∃ d, t.dictionary? m.current = some d := by
  obtain ⟨d, hrow⟩ := Table.state?_eq_some_iff.1 hm.state?_current
  exact ⟨d, Table.dictionary?_eq_some_iff.2 ⟨m.state, hrow⟩⟩

section Current

variable (hm : m.RunsOn t) (hd : t.dictionary? m.current = some d)
include hm hd

theorem RunsOn.lookup?_of_dictionary? : m.lookup? trigger = d.lookup? trigger := by
  rw [lookup?, dictionary?, hm.table_eq, hd, Option.bind_some]

theorem RunsOn.isTerminal_eq : m.isTerminal = d.isEmpty := by
  rw [isTerminal, dictionary?, hm.table_eq, hd, Option.map_some, Option.getD_some]

theorem RunsOn.advance_of_answers (h : t.WellFormed) (hanswers : d.Answers trigger key entry)
    (now : Timestamp) :
    ∃ n, t.position? entry.next = some n ∧
      m.advance trigger now = .ok ({ m with
        current := n
        state := entry.next
        history := ⟨m.history.steps ++ [⟨m.current, n, key, now⟩]⟩ }, entry) := by
  have hlookup : m.lookup? trigger = some (key, entry) := by
    rw [hm.lookup?_of_dictionary? hd, Dictionary.lookup?_eq_some_iff]
    exact hanswers
  obtain ⟨n, hposition⟩ := exists_position?_of_lookup? h hm.table_eq hlookup
  exact ⟨n, hposition,
    advance_eq_ok_iff.2 ⟨key, n, hlookup, hm.table_eq ▸ hposition, rfl⟩⟩

theorem RunsOn.advance_of_lookup?_eq_none (hnone : d.lookup? trigger = none) (now : Timestamp) :
    m.advance trigger now = .error (.noTransition m.state trigger) := by
  rw [← hm.lookup?_of_dictionary? hd] at hnone
  simp only [advance, hnone]

variable {σ : Type} (run : Behaviors σ) (args : List Value) (now : Timestamp) (shared : σ)

theorem RunsOn.exists_fire_eq_error_iff (h : t.WellFormed) :
    (∃ e, ((m.fire run trigger args now).run shared).1.1 = .error e) ↔
      d.lookup? trigger = none := by
  cases hlookup : d.lookup? trigger with
  | none =>
      rw [run_fire_of_advance_eq_error run args now shared
        (hm.advance_of_lookup?_eq_none hd hlookup now)]
      simp
  | some found =>
      obtain ⟨n, -, hadvance⟩ :=
        hm.advance_of_answers hd h (Dictionary.lookup?_eq_some_iff.1 hlookup) now
      rw [run_fire_of_advance_eq_ok run args now shared hadvance]
      simp

theorem RunsOn.exists_fire_eq_ok_iff (h : t.WellFormed) :
    (∃ output, ((m.fire run trigger args now).run shared).1.1 = .ok output) ↔
      (∃ entry, d.get? trigger = some entry) ∨ ∃ entry, d.default? = some entry := by
  have hsplit : ∀ result : Except MachineError Value,
      (∃ output, result = .ok output) ↔ ¬ ∃ e, result = .error e := by
    intro result
    cases result <;> simp
  rw [hsplit, hm.exists_fire_eq_error_iff hd run args now shared h,
    Dictionary.lookup?_eq_none_iff, not_and_or, ← ne_eq, ← ne_eq, Option.ne_none_iff_exists',
    Option.ne_none_iff_exists']

end Current

/-- What holds of every machine in use.  A firing succeeds exactly if an entry answers the trigger,
and then it makes the one move of this entry; any other firing changes nothing and calls nothing.
At a terminal state, and only there, every trigger is refused. -/
theorem fire_moves_or_keeps {lines : List Line} (hbuild : Table.build lines = .ok t)
    (hm : m.Live t) :
    ∃ d, t.dictionary? m.current = some d ∧
      ∀ {σ : Type} (run : Behaviors σ) (args : List Value) (now : Timestamp) (shared : σ),
        (∀ trigger,
          let fired := (m.fire run trigger args now).run shared
          (∀ state, fired.1.1 ≠ .error (.unknownState state)) ∧
          ((∃ output, fired.1.1 = .ok output) ↔
            (∃ entry, d.get? trigger = some entry) ∨ ∃ entry, d.default? = some entry) ∧
          (∀ key entry, d.Answers trigger key entry →
            ∃ n, t.position? entry.next = some n ∧
              fired.1.2 = { m with
                current := n
                state := entry.next
                history := ⟨m.history.steps ++ [⟨m.current, n, key, now⟩]⟩ }) ∧
          (d.get? trigger = none → d.default? = none →
            fired = ((.error (.noTransition m.state trigger), m), shared) ∧
            ((m.fire run.logged trigger args now).run (shared, [])).2.2 = [])) ∧
        (m.isTerminal = true ↔
          ∀ trigger, ∃ e, ((m.fire run trigger args now).run shared).1.1 = .error e) := by
  have h := Table.wellFormed_of_build hbuild
  have hruns := (hm.placed h).toRunsOn
  obtain ⟨d, hd⟩ := hruns.exists_dictionary?
  refine ⟨d, hd, fun {σ} run args now shared => ⟨fun trigger => ⟨?_, ?_, ?_, ?_⟩, ?_⟩⟩
  · exact fire_ne_unknownState h hruns.table_eq run trigger args now shared
  · exact hruns.exists_fire_eq_ok_iff hd run args now shared h
  · intro key entry hanswers
    obtain ⟨n, hposition, hadvance⟩ := hruns.advance_of_answers hd h hanswers now
    rw [run_fire_of_advance_eq_ok run args now shared hadvance]
    exact ⟨n, hposition, rfl⟩
  · intro hown hdefault
    have hadvance := hruns.advance_of_lookup?_eq_none hd
      (Dictionary.lookup?_eq_none_iff.2 ⟨hown, hdefault⟩) now
    refine ⟨run_fire_of_advance_eq_error run args now shared hadvance, ?_⟩
    rw [run_fire_of_advance_eq_error run.logged args now (shared, []) hadvance]
  · rw [hruns.isTerminal_eq hd, Dictionary.isEmpty_iff]
    exact forall_congr' fun _ => (hruns.exists_fire_eq_error_iff hd run args now shared h).symm

/-- At `A` the trigger `go` has an entry of its own and any other one the default, which leads to
`C`, where nothing leads on. -/
theorem fire_moves_or_keeps_of_go :
    let now : Timestamp := .ofSecondOfDay (.firstOfYear 2024) 0 0
    let run : Behaviors Unit := fun _ _ => pure .null
    ∃ t m ended, Table.build [⟨1, ⟨true, true⟩, .text "A", .text "B", some (.text "go")⟩,
        ⟨2, ⟨true, false⟩, .text "A", .text "C", none⟩] = .ok t ∧ Live t m ∧ Live t ended ∧
      m.history.steps.map Step.trigger = ["go", "go"] ∧
      ((m.fire run "go" [] now).run ()).1.2.history.steps =
        m.history.steps ++ [⟨0, 1, "go", now⟩] ∧
      ((m.fire run "stop" [] now).run ()).1.2.history.steps =
        m.history.steps ++ [⟨0, 2, "", now⟩] ∧
      (ended.fire run "go" [] now).run () = ((.error (.noTransition (.text "C") "go"), ended), ()) ∧
      ended.isTerminal = true := by
  intro now run
  let t : Table := ⟨[(.text "A", ⟨[("go", .leadingTo (.text "B") (some (.text "go"))),
      ("", .leadingTo (.text "C") none)]⟩),
    (.text "B", ⟨[("go", .leadingTo (.text "A") (some (.text "go")))]⟩), (.text "C", ⟨[]⟩)]⟩
  have hbuild : Table.build [⟨1, ⟨true, true⟩, .text "A", .text "B", some (.text "go")⟩,
      ⟨2, ⟨true, false⟩, .text "A", .text "C", none⟩] = .ok t := rfl
  have started := @Live.started t _ (.text "A") rfl
  have back := (started.fired run "go" [] now ()).fired run "go" [] now ()
  have ended := back.fired run "stop" [] now ()
  obtain ⟨d, hd, hback⟩ := fire_moves_or_keeps hbuild back
  obtain rfl := Option.some.inj hd
  obtain ⟨n, hn, hown⟩ := ((hback run [] now ()).1 "go").2.2.1 _ _ (.own rfl)
  obtain rfl := Option.some.inj hn
  obtain ⟨n, hn, hdefault⟩ := ((hback run [] now ()).1 "stop").2.2.1 _ _ (.default rfl rfl)
  obtain rfl := Option.some.inj hn
  obtain ⟨d, hd, hended⟩ := fire_moves_or_keeps hbuild ended
  obtain rfl := Option.some.inj hd
  obtain ⟨hrefused, hterminal⟩ := hended run [] now ()
  refine ⟨t, _, _, hbuild, back, ended, rfl, by rw [hown]; rfl, by rw [hdefault]; rfl,
    ((hrefused "go").2.2.2 rfl rfl).1, hterminal.2 fun trigger => ?_⟩
  exact ⟨_, congrArg (·.1.1) ((hrefused trigger).2.2.2 rfl rfl).1⟩

end Machine

end StateDiagram
