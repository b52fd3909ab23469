import StateDiagram.Proofs.Bytes.Lawful
import StateDiagram.Proofs.Json.Lawful
import StateDiagram.Proofs.Machine.Course
import StateDiagram.Proofs.Machine.Reached

/-!
# Resumption

A run may be cut anywhere: its machine is checkpointed, the checkpoint is kept as it is, as JSON or
as bytes, and another machine is resumed from it.  Nobody sees that.  The written forms count in
words of 64 bits, so positions, lengths and the number of steps have to fit in them.
-/

namespace StateDiagram

/-! ## Media -/

/-- How a checkpoint is kept. -/
inductive Medium where
  | memory
  | json
  | bytes
  deriving DecidableEq, Repr

/-- The checkpoint that is read back from the medium. -/
def Medium.carry? : Medium → Checkpoint → Option Checkpoint
  | .memory, c => some c
  | .json, c => JsonForm.ofText? (JsonForm.toText c)
  | .bytes, c => ByteForm.ofBytes? (ByteForm.encode c)

theorem JsonForm.fits_of_byteForm {c : Checkpoint} (h : ByteForm.Fits c) : JsonForm.Fits c := by
  obtain ⟨-, -, -, hstart, hcurrent, -, -, hsteps⟩ := h
  exact ⟨hstart, hcurrent, fun step hmem => ⟨(hsteps step hmem).1, (hsteps step hmem).2.1⟩⟩

theorem Medium.carry?_eq_some {c : Checkpoint} (h : ByteForm.Fits c) (medium : Medium) :
    medium.carry? c = some c := by
  cases medium with
  | memory => rfl
  | json => exact JsonForm.ofText?_toText (JsonForm.fits_of_byteForm h)
  | bytes => exact ByteForm.ofBytes?_encode h

/-! ## Checkpoints that fit -/

/-- Positions of the table and lengths of its names have 64 bits, as in every memory whose
addresses have so many. -/
structure Table.Addressable (t : Table) : Prop where
  size_le : t.size ≤ UInt64.size
  label : ∀ state ∈ t.states, state.label.utf8ByteSize < UInt64.size
  key : ∀ row ∈ t.rows, ∀ entry ∈ row.2.entries, entry.1.utf8ByteSize < UInt64.size

namespace Machine

variable {t : Table} {m moved : Machine} {trigger : String} {now : Timestamp} {moves : Nat}

/-- The machine can be checkpointed in every medium, now and after so many moves. -/
structure Portable (t : Table) (m : Machine) (moves : Nat) : Prop extends Coherent t m where
  size_lt : m.history.size + moves < UInt64.size
  time : ∀ step ∈ m.history.steps, ByteForm.Fits step.time

theorem Portable.mono {fewer : Nat} (hm : m.Portable t moves) (h : fewer ≤ moves) :
    m.Portable t fewer :=
  ⟨hm.toCoherent, by have := hm.size_lt; omega, hm.time⟩

theorem Portable.fits_step (ht : t.Addressable) (h : t.WellFormed) (hm : m.Portable t moves)
    {step : Step} (hmem : step ∈ m.history.steps) : ByteForm.Fits step := by
  obtain ⟨d, entry, hd, hentry, hstate⟩ := hm.allows step hmem
  obtain ⟨state, hrow⟩ := Table.dictionary?_eq_some_iff.1 hd
  have hmem_row := List.mem_of_getElem? hrow
  have hkey := (h.dictionary _ hmem_row).get?_eq_some_iff.1 hentry
  exact ⟨Nat.lt_of_lt_of_le (hm.allows step hmem).source_lt ht.size_le,
    Nat.lt_of_lt_of_le (hm.allows step hmem).target_lt ht.size_le, ht.key _ hmem_row _ hkey,
    hm.time step hmem⟩

theorem Portable.fits_checkpoint (ht : t.Addressable) (h : t.WellFormed)
    (hm : m.Portable t moves) {id : String} (hid : ByteForm.Fits id)
    (hnow : ByteForm.Fits now) : ByteForm.Fits (m.checkpoint id now) := by
  have hsize : m.history.steps.length < UInt64.size :=
    Nat.lt_of_le_of_lt (Nat.le_add_right _ _) hm.size_lt
  exact ⟨trivial, hid, hnow, Nat.lt_of_lt_of_le hm.start_lt ht.size_le,
    Nat.lt_of_lt_of_le (Table.lt_size_of_state? hm.state?_current) ht.size_le,
    ht.label _ (List.mem_of_getElem? hm.state?_current), hsize,
    fun step hmem => hm.fits_step ht h hmem⟩

theorem Portable.advance (h : t.WellFormed) (hm : m.Portable t (moves + 1))
    (hnow : ByteForm.Fits now) {entry : Entry}
    (hadvance : m.advance trigger now = .ok (moved, entry)) : moved.Portable t moves := by
  obtain ⟨hcoherent, hsize⟩ := hm.toCoherent.advance h hadvance
  refine ⟨hcoherent, by have := hm.size_lt; omega, ?_⟩
  obtain ⟨key, next, -, -, rfl⟩ := advance_eq_ok_iff.1 hadvance
  intro step hmem
  rcases List.mem_append.1 hmem with hold | hnew
  · exact hm.time step hold
  · rw [List.mem_singleton.1 hnew]
    exact hnow

theorem Portable.fire {σ : Type} (h : t.WellFormed) (hm : m.Portable t (moves + 1))
    (hnow : ByteForm.Fits now) (run : Behaviors σ) (trigger : String) (args : List Value)
    (shared : σ) : ((m.fire run trigger args now).run shared).1.2.Portable t moves := by
  cases hadvance : m.advance trigger now with
  | error e =>
      rw [run_fire_of_advance_eq_error run args now shared hadvance]
      exact hm.mono (Nat.le_succ moves)
  | ok result =>
      rw [run_fire_of_advance_eq_ok run args now shared hadvance]
      exact hm.advance h hnow hadvance

/-! ## Runs with cuts -/

/-- What is done with a machine, one after another. -/
inductive Request where
  | fire (firing : Firing)
  | cut (medium : Medium) (id : String) (now : Timestamp)

namespace Request

def firing? : Request → Option Firing
  | .fire firing => some firing
  | .cut _ _ _ => none

def Fits : Request → Prop
  | .fire firing => ByteForm.Fits firing.now
  | .cut _ id now => ByteForm.Fits id ∧ ByteForm.Fits now

end Request

section Serving

variable {σ : Type}

/-- The results of all firings and the machine after them; none if a cut fails. -/
def serve (run : Behaviors σ) (t : Table) : Machine → List Request →
    StateM σ (Option (List (Except MachineError Value) × Machine))
  | m, [] => pure (some ([], m))
  | m, .fire firing :: rest => do
      let (result, moved) ← m.fire run firing.trigger firing.args firing.now
      let served ← serve run t moved rest
      pure (served.map fun (results, reached) => (result :: results, reached))
  | m, .cut medium id now :: rest =>
      match (medium.carry? (m.checkpoint id now)).map (resume t) with
      | some (.ok resumed) => serve run t resumed rest
      | _ => pure none

theorem run_serve_fire (run : Behaviors σ) (t : Table) (m : Machine) (firing : Firing)
    (rest : List Request) (shared : σ) :
    (serve run t m (.fire firing :: rest)).run shared =
      let fired := (m.fire run firing.trigger firing.args firing.now).run shared
      let rested := (serve run t fired.1.2 rest).run fired.2
      (rested.1.map fun (results, reached) => (fired.1.1 :: results, reached), rested.2) := rfl

theorem serve_cut (ht : t.Addressable) (h : t.WellFormed) (hm : m.Portable t moves)
    (run : Behaviors σ) (medium : Medium) {id : String} (hid : ByteForm.Fits id)
    (hnow : ByteForm.Fits now) (rest : List Request) :
    serve run t m (.cut medium id now :: rest) = serve run t m rest := by
  have hcarry := Medium.carry?_eq_some (hm.fits_checkpoint ht h hid hnow) medium
  rw [serve, hcarry, Option.map_some, hm.toCoherent.resume_checkpoint]

/-- The cuts of a run might as well be left out. -/
theorem run_serve (ht : t.Addressable) (h : t.WellFormed) (run : Behaviors σ)
    {requests : List Request} (hm : m.Portable t requests.length)
    (hrequests : ∀ request ∈ requests, request.Fits) (shared : σ) :
    let fired := (fireEach run m (requests.filterMap Request.firing?)).run shared
    (serve run t m requests).run shared = (some fired.1, fired.2) := by
  -- Every request takes one from the moves that still fit; a cut only gives the machine back.
  induction requests generalizing m shared with
  | nil => rfl
  | cons request rest ih =>
      have hrest : ∀ request ∈ rest, request.Fits :=
        fun r hr => hrequests r (List.mem_cons_of_mem request hr)
      have hrequest := hrequests request List.mem_cons_self
      cases request with
      | fire firing =>
          have hfired := hm.fire h hrequest run firing.trigger firing.args shared
          have hfirings : (Request.fire firing :: rest).filterMap Request.firing? =
              firing :: rest.filterMap Request.firing? := rfl
          rw [hfirings, run_serve_fire, run_fireEach_cons]
          simp only [ih hfired hrest, Option.map_some]
      | cut medium id now =>
          rw [serve_cut ht h hm run medium hrequest.1 hrequest.2 rest]
          exact ih (hm.mono (Nat.le_succ _)) hrest shared

end Serving

/-- A machine that was reached is resumed from its checkpoint as it was, and through every medium
if its numbers and lengths fit there.  Cuts leave the results of a run as they are, and so does
another clock, of which only the times in the history tell. -/
theorem checkpoint_transparent {lines : List Line} (hbuild : Table.build lines = .ok t)
    (hm : Reached t moves m) :
    (∀ id now, resume t (m.checkpoint id now) = .ok m) ∧
    (t.Addressable → (∀ step ∈ m.history.steps, ByteForm.Fits step.time) →
      (moves < UInt64.size → ∀ (medium : Medium) (id : String) (now : Timestamp),
        ByteForm.Fits id → ByteForm.Fits now →
        (medium.carry? (m.checkpoint id now)).map (resume t) = some (.ok m)) ∧
      ∀ requests : List Request, moves + requests.length < UInt64.size →
        (∀ request ∈ requests, request.Fits) →
        ∀ {σ : Type} (run : Behaviors σ) (shared : σ),
          let fired := (fireEach run m (requests.filterMap Request.firing?)).run shared
          (serve run t m requests).run shared = (some fired.1, fired.2) ∧
          ∀ firings : List Firing,
            firings.map Firing.ask = (requests.filterMap Request.firing?).map Firing.ask →
            let whole := (fireEach run m firings).run shared
            whole.1.1 = fired.1.1 ∧ whole.1.2.course = fired.1.2.course ∧ whole.2 = fired.2) := by
  have h := Table.wellFormed_of_build hbuild
  obtain ⟨hcoherent, hmoves⟩ := hm.coherent h
  refine ⟨hcoherent.resume_checkpoint, fun ht htime => ⟨?_, ?_⟩⟩
  · intro hfits medium id now hid hnow
    have hportable : m.Portable t 0 := ⟨hcoherent, by omega, htime⟩
    rw [medium.carry?_eq_some (hportable.fits_checkpoint ht h hid hnow), Option.map_some,
      hcoherent.resume_checkpoint]
  · intro requests hroom hrequests σ run shared
    have hportable : m.Portable t requests.length := ⟨hcoherent, by omega, htime⟩
    exact ⟨run_serve ht h run hportable hrequests shared,
      fun firings hask => fireEach_congr rfl hask run shared⟩

/-- Two moves with a cut through either written form after the first. -/
theorem checkpoint_transparent_of_go :
    let now : Timestamp := .ofSecondOfDay (.firstOfYear 2024) 0 0
    let nothing : Behaviors Unit := fun _ _ => pure .null
    let requests : List Request := [.fire ⟨"go", [], now⟩, .cut .json "first" now,
      .cut .bytes "second" now, .fire ⟨"stop", [], now⟩]
    ∃ t m reached, Table.build [⟨1, ⟨true, false⟩, .text "A", .text "B", some (.text "go")⟩,
        ⟨2, ⟨true, false⟩, .text "B", .text "A", none⟩] = .ok t ∧ Reached t 0 m ∧ t.Addressable ∧
      (Medium.bytes.carry? (m.checkpoint "third" now)).map (resume t) = some (.ok m) ∧
      (serve nothing t m requests).run () =
        (some ([.ok (.text "B"), .ok (.text "A")], reached), ()) ∧
      reached.history.path = [0, 1, 0] := by
  intro now nothing requests
  let t : Table := ⟨[(.text "A", ⟨[("go", .leadingTo (.text "B") (some (.text "go")))]⟩),
    (.text "B", ⟨[("", .leadingTo (.text "A") none)]⟩)]⟩
  have hbuild : Table.build [⟨1, ⟨true, false⟩, .text "A", .text "B", some (.text "go")⟩,
      ⟨2, ⟨true, false⟩, .text "B", .text "A", none⟩] = .ok t := rfl
  have started := @Reached.start t _ (.text "A") rfl
  have ht : t.Addressable := by
    refine ⟨by decide, ?_, ?_⟩ <;> decide
  have hnow : ByteForm.Fits now := by
    change (2024 : Int).natAbs < 10 ^ 6
    decide
  obtain ⟨-, hwritten⟩ := checkpoint_transparent hbuild started
  obtain ⟨hcarry, hserve⟩ := hwritten ht (by simp [History.empty])
  have hid : ∀ id ∈ ["first", "second", "third"], ByteForm.Fits id := by
    intro id hmem
    change id.utf8ByteSize < UInt64.size
    revert id
    decide
  have hrequests : ∀ request ∈ requests, request.Fits := by
    simp only [requests, List.forall_mem_cons]
    exact ⟨hnow, ⟨hid _ (by simp), hnow⟩, ⟨hid _ (by simp), hnow⟩, hnow, by simp⟩
  obtain ⟨hserved, -⟩ := hserve requests (by decide) hrequests nothing ()
  exact ⟨t, _, _, hbuild, started, ht, hcarry (by decide) .bytes _ now (hid _ (by simp)) hnow,
    hserved, rfl⟩

end Machine

end StateDiagram
