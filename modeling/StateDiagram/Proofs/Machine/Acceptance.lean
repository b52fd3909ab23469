import StateDiagram.Proofs.Machine.Growth
import StateDiagram.Proofs.Machine.Isolation

/-!
# Machines from any checkpoint

A checkpoint may come from anywhere, so its history need not be a walk and its start need not lead
to its current position.  It is accepted exactly if its positions are in the table and its label is
that of the current state, and that is all a machine needs to be used without harm.
-/

namespace StateDiagram

/-! ## What is refused -/

/-- Both ends of the step are positions of the table. -/
def Step.Within (t : Table) (step : Step) : Prop := step.source < t.size ∧ step.target < t.size

/-- Why a checkpoint is refused.  Each reason takes for granted that those before it do not apply. -/
inductive Checkpoint.Refusal (t : Table) (c : Checkpoint) : ResumeError → Prop
  | version : c.version ≠ 1 → Refusal t c (.unsupportedVersion c.version)
  | history {before : List Step} {step : Step} {after : List Step} : c.version = 1 →
      c.history.steps = before ++ step :: after → (∀ earlier ∈ before, earlier.Within t) →
      ¬ step.Within t → Refusal t c (.historyOutOfRange step.source step.target t.size)
  | start : c.version = 1 → (∀ step ∈ c.history.steps, step.Within t) → t.size ≤ c.start →
      Refusal t c (.positionOutOfRange c.start t.size)
  | current : c.version = 1 → (∀ step ∈ c.history.steps, step.Within t) → c.start < t.size →
      t.size ≤ c.current → Refusal t c (.positionOutOfRange c.current t.size)
  | label {state : Ident} : c.version = 1 → (∀ step ∈ c.history.steps, step.Within t) →
      c.start < t.size → t.state? c.current = some state → state.label ≠ c.currentLabel →
      Refusal t c (.labelMismatch c.current c.currentLabel state.label)

theorem Table.state?_eq_none_iff {t : Table} {position : Nat} :
    t.state? position = none ↔ t.size ≤ position := by
  rw [← t.length_states]
  exact List.getElem?_eq_none_iff

namespace Machine

variable {t : Table} {m : Machine} {c : Checkpoint}

theorem find?_within_eq_none_iff {steps : List Step} :
    steps.find? (fun s => t.size ≤ s.source || t.size ≤ s.target) = none ↔
      ∀ step ∈ steps, step.Within t := by
  simp [List.find?_eq_none, Step.Within]

theorem find?_within_eq_some_iff {steps : List Step} {step : Step} :
    steps.find? (fun s => t.size ≤ s.source || t.size ≤ s.target) = some step ↔
      ¬ step.Within t ∧ ∃ before after, steps = before ++ step :: after ∧
        ∀ earlier ∈ before, earlier.Within t := by
  rw [List.find?_eq_some_iff_append]
  apply and_congr
  · simp only [Step.Within, Bool.or_eq_true, decide_eq_true_eq]
    omega
  · simp [Step.Within]

theorem resume_eq_error_iff {e : ResumeError} : resume t c = .error e ↔ c.Refusal t e := by
  constructor
  · intro h
    unfold resume at h
    split at h
    · next hversion =>
        cases h
        exact .version hversion
    · next hversion =>
        have hversion : c.version = 1 := not_not.1 hversion
        split at h
        · next step hfind =>
            cases h
            obtain ⟨hstep, before, after, hsplit, hbefore⟩ := find?_within_eq_some_iff.1 hfind
            exact .history hversion hsplit hbefore hstep
        · next hfind =>
            have hsteps := find?_within_eq_none_iff.1 hfind
            split at h
            · next hstart =>
                cases h
                exact .start hversion hsteps hstart
            · next hstart =>
                have hstart := Nat.lt_of_not_le hstart
                split at h
                · next hstate =>
                    cases h
                    exact .current hversion hsteps hstart (Table.state?_eq_none_iff.1 hstate)
                · next state hstate =>
                    split at h
                    · contradiction
                    · next hlabel =>
                        cases h
                        exact .label hversion hsteps hstart hstate hlabel
  · intro h
    unfold resume
    cases h with
    | version hversion => exact if_pos hversion
    | history hversion hsplit hbefore hstep =>
        have hfind := find?_within_eq_some_iff.2 ⟨hstep, _, _, hsplit, hbefore⟩
        simp [hversion, hfind, checkpointVersion]
    | start hversion hsteps hstart =>
        have hfind := find?_within_eq_none_iff.2 hsteps
        simp [hversion, hfind, hstart, checkpointVersion]
    | current hversion hsteps hstart hcurrent =>
        have hfind := find?_within_eq_none_iff.2 hsteps
        have hstate := Table.state?_eq_none_iff.2 hcurrent
        simp [hversion, hfind, hstart, hstate, checkpointVersion]
    | label hversion hsteps hstart hstate hlabel =>
        have hfind := find?_within_eq_none_iff.2 hsteps
        simp [hversion, hfind, hstart, hstate, hlabel, checkpointVersion]

theorem exists_resume_eq_ok_iff :
    (∃ m, resume t c = .ok m) ↔
      c.version = 1 ∧ (∀ step ∈ c.history.steps, step.Within t) ∧ c.start < t.size ∧
        c.current < t.size ∧ (t.state? c.current).map Ident.label = some c.currentLabel := by
  constructor
  · rintro ⟨m, h⟩
    obtain ⟨hversion, hsteps, hstart, state, hstate, hlabel, -⟩ := resume_eq_ok_iff.1 h
    refine ⟨hversion, hsteps, hstart, Table.lt_size_of_state? hstate, ?_⟩
    rw [hstate, Option.map_some, hlabel]
  · rintro ⟨hversion, hsteps, hstart, -, hcurrent⟩
    obtain ⟨state, hstate, hlabel⟩ := Option.map_eq_some_iff.1 hcurrent
    exact ⟨_, resume_eq_ok_iff.2 ⟨hversion, hsteps, hstart, state, hstate, hlabel, rfl⟩⟩

/-! ## What comes after -/

/-- The machine comes from the first one by use and by being resumed from its own checkpoints, on
the table. -/
inductive Later (t : Table) (m : Machine) : Machine → Prop
  | same : Later t m m
  | used {after : Machine} (hm : Later t m after) {σ : Type} (run : Behaviors σ) (request : Use)
      (shared : σ) : Later t m ((after.use run request).run shared).1.2
  | resumed {after again : Machine} (hm : Later t m after) {id : String} {now : Timestamp}
      (h : resume t (after.checkpoint id now) = .ok again) : Later t m again

theorem Placed.use {σ : Type} (h : t.WellFormed) (hm : m.Placed t) (run : Behaviors σ)
    (request : Use) (shared : σ) : ((m.use run request).run shared).1.2.Placed t := by
  cases request with
  | fire firing => exact hm.fire h run firing.trigger firing.args firing.now shared
  | call args => exact hm
  | construct args => exact hm

theorem Later.placed (h : t.WellFormed) (hm : m.Placed t) {later : Machine}
    (hlater : m.Later t later) : later.Placed t := by
  induction hlater with
  | same => exact hm
  | used _ run request shared ih => exact ih.use h run request shared
  | resumed _ hresume _ => exact placed_of_resume hresume

theorem fire_ne_unknownState {σ : Type} (h : t.WellFormed) (htable : m.table = t)
    (run : Behaviors σ) (trigger : String) (args : List Value) (now : Timestamp) (shared : σ)
    (state : Ident) :
    ((m.fire run trigger args now).run shared).1.1 ≠ .error (.unknownState state) := by
  intro heq
  cases hnext : t.next? m.current trigger with
  | none =>
      rw [fire_of_next?_eq_none run args now shared h htable hnext] at heq
      cases heq
  | some n =>
      obtain ⟨key, entry, -, -, hadvance⟩ := advance_of_next? now htable hnext
      rw [run_fire_of_advance_eq_ok run args now shared hadvance] at heq
      cases heq

/-- A checkpoint is accepted exactly if its positions and its label fit the table, the first check
that it fails is what it is refused for, and a machine that comes from one that is accepted works
for good, whatever the history says. -/
theorem resume_accepts_usable {lines : List Line} (hbuild : Table.build lines = .ok t)
    (c : Checkpoint) :
    ((∃ m, resume t c = .ok m) ↔
      c.version = 1 ∧ (∀ step ∈ c.history.steps, step.Within t) ∧ c.start < t.size ∧
        c.current < t.size ∧ (t.state? c.current).map Ident.label = some c.currentLabel) ∧
    (∀ e, resume t c = .error e ↔ c.Refusal t e) ∧
    ∀ m, resume t c = .ok m →
      (m.start = c.start ∧ m.current = c.current ∧ m.history = c.history) ∧
      ∀ later, m.Later t later →
        later.table = t ∧ t.state? later.current = some later.state ∧
        later.path.length = later.history.path.length ∧
        (∀ {σ : Type} (run : Behaviors σ) (trigger : String) (args : List Value)
          (now : Timestamp) (shared : σ) (state : Ident),
          ((later.fire run trigger args now).run shared).1.1 ≠ .error (.unknownState state)) ∧
        ∀ (id : String) (now : Timestamp), resume t (later.checkpoint id now) = .ok later := by
  refine ⟨exists_resume_eq_ok_iff, fun e => resume_eq_error_iff, ?_⟩
  intro m hm
  have hwf := Table.wellFormed_of_build hbuild
  refine ⟨?_, ?_⟩
  · obtain ⟨-, -, -, state, -, -, rfl⟩ := resume_eq_ok_iff.1 hm
    exact ⟨rfl, rfl, rfl⟩
  · intro later hlater
    have hplaced := hlater.placed hwf (placed_of_resume hm)
    have hlength : later.path.length = later.history.path.length := by
      simpa using congrArg List.length hplaced.path_eq
    exact ⟨hplaced.table_eq, hplaced.state?_current, hlength,
      fun run trigger args now shared state =>
        fire_ne_unknownState hwf hplaced.table_eq run trigger args now shared state,
      hplaced.resume_checkpoint_self⟩

/-- The steps are no walk, the start leads nowhere near the current position and the triggers are
those of no entry.  The machine shows three states of a walk that never was, and goes on. -/
theorem resume_accepts_usable_of_forged :
    let now : Timestamp := .ofSecondOfDay (.firstOfYear 2024) 0 0
    let lines : List Line := [⟨1, ⟨true, false⟩, .text "A", .text "B", some (.text "go")⟩,
      ⟨2, ⟨true, false⟩, .text "B", .text "A", none⟩]
    let forged : Checkpoint := ⟨1, "forged", now, 1, 0, "A", ⟨[⟨1, 1, "?", now⟩, ⟨0, 1, "!", now⟩]⟩⟩
    let broken : Checkpoint := ⟨1, "broken", now, 5, 0, "A", ⟨[⟨0, 1, "go", now⟩, ⟨1, 2, "", now⟩]⟩⟩
    ∃ t m later, Table.build lines = .ok t ∧ resume t forged = .ok m ∧ m.Later t later ∧
      later.history.steps.map Step.trigger = ["?", "!", "go"] ∧ later.path.length = 4 ∧
      resume t (later.checkpoint "" now) = .ok later ∧
      resume t broken = .error (.historyOutOfRange 1 2 2) := by
  intro now lines forged broken
  let t : Table := ⟨[(.text "A", ⟨[("go", .leadingTo (.text "B") (some (.text "go")))]⟩),
    (.text "B", ⟨[("", .leadingTo (.text "A") none)]⟩)]⟩
  let run : Behaviors Unit := fun _ _ => pure .null
  have hbuild : Table.build lines = .ok t := rfl
  let m : Machine := ⟨t, 1, 0, .text "A", forged.history⟩
  have hresume : resume t forged = .ok m := rfl
  obtain ⟨-, -, hlater⟩ := resume_accepts_usable hbuild forged
  have went := (@Later.same t m).used run (.fire ⟨"go", [], now⟩) ()
  obtain ⟨-, -, hlength, -, hagain⟩ := (hlater _ hresume).2 _ went
  obtain ⟨-, hrefused, -⟩ := resume_accepts_usable hbuild broken
  have hwithin : ∀ step ∈ [⟨0, 1, "go", now⟩], Step.Within t step := by
    intro step hmem
    obtain rfl := List.mem_singleton.1 hmem
    exact ⟨by decide, by decide⟩
  have hbeyond : ¬ Step.Within t ⟨1, 2, "", now⟩ := fun h => absurd h.2 (by decide)
  have hrefusal : broken.Refusal t (.historyOutOfRange 1 2 2) :=
    @Checkpoint.Refusal.history _ _ _ ⟨1, 2, "", now⟩ _ rfl rfl hwithin hbeyond
  exact ⟨t, m, _, hbuild, hresume, went, rfl, hlength, hagain "" now, (hrefused _).2 hrefusal⟩

end Machine

end StateDiagram
