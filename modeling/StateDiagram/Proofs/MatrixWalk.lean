import Mathlib.Data.List.Nodup
import StateDiagram.Proofs.Machine
import StateDiagram.Proofs.Matrix
import StateDiagram.Proofs.Packed.RoundTrip

/-!
# Machines and matrix walks

A walk along the matrix goes where a cell says and, at an empty cell, where the default entry
leads.  As long as no two events share a label, a machine goes the same way.
-/

namespace StateDiagram

def Index.label? (index : Index) (n : Nat) : Option String := (index.event? n).map Ident.label

namespace TransitionMatrix

/-- Where a walk ends that stays where it is if neither a cell nor a default leads on. -/
def walk (m : TransitionMatrix) (default? : Nat → Option Nat) (start : Nat) (events : List Nat) :
    Nat :=
  events.foldl (fun p j => ((m.get? p j).or (default? p)).getD p) start

end TransitionMatrix

namespace Table.WellFormed

variable {t : Table} {i j n : Nat} {trigger : String}

theorem get?_matrix_of_dictionary?_eq_none (h : t.WellFormed) (hd : t.dictionary? i = none) :
    t.matrix.get? i j = none := by
  have hrow : t.rows[i]? = none := Option.map_eq_none_iff.1 hd
  simp [TransitionMatrix.get?, TransitionMatrix.row?, h.matrix_rows, hrow]

theorem mem_events_of_get? (h : t.WellFormed) {d : Dictionary} (hd : t.dictionary? i = some d)
    {entry : Entry} (hget : d.get? trigger = some entry) {event : Ident}
    (hevent : entry.event = some event) : event ∈ t.index.events := by
  obtain ⟨state, hrow⟩ := dictionary?_eq_some_iff.1 hd
  have hmem := List.mem_of_getElem? hrow
  have hentry := (h.dictionary _ hmem).get?_eq_some_iff.1 hget
  exact h.mem_index_events.2 ⟨_, hmem, trigger, entry, hentry, hevent⟩

theorem next?_of_get?_matrix (h : t.WellFormed) (hlabel : t.index.label? j = some trigger)
    (hcell : t.matrix.get? i j = some n) : t.next? i trigger = some n := by
  obtain ⟨event, hevent, rfl⟩ := Option.map_eq_some_iff.1 hlabel
  cases hd : t.dictionary? i with
  | none =>
      rw [h.get?_matrix_of_dictionary?_eq_none hd] at hcell
      contradiction
  | some d =>
      obtain ⟨entry, hget, -, hposition⟩ := (h.get?_matrix_eq_some_iff hd hevent).1 hcell
      rw [next?_of_get? hd hget, hposition]

theorem get?_eq_none_of_get?_matrix (h : t.WellFormed)
    (hlabels : (t.index.events.map Ident.label).Nodup) {d : Dictionary}
    (hd : t.dictionary? i = some d) (hlabel : t.index.label? j = some trigger)
    (hcell : t.matrix.get? i j = none) : d.get? trigger = none := by
  obtain ⟨event, hevent, rfl⟩ := Option.map_eq_some_iff.1 hlabel
  have hmem : event ∈ t.index.events := List.mem_of_getElem? hevent
  rw [Option.eq_none_iff_forall_ne_some]
  intro entry hget
  obtain ⟨state, hrow⟩ := dictionary?_eq_some_iff.1 hd
  have hwell := h.dictionary _ (List.mem_of_getElem? hrow)
  have hentry := hwell.get?_eq_some_iff.1 hget
  -- The entry's event has the same label, so it is this event and the cell would be set.
  cases hother : entry.event with
  | none =>
      have hkey := hwell.key_eq hentry
      simp only [Entry.key, Entry.label?, hother, Option.map_none, Option.getD_none] at hkey
      exact h.label_ne_of_mem_events hmem hkey.symm
  | some other =>
      have hkey := hwell.key_eq hentry
      simp only [Entry.key, Entry.label?, hother, Option.map_some, Option.getD_some] at hkey
      have hsame : other = event :=
        List.inj_on_of_nodup_map hlabels (h.mem_events_of_get? hd hget hother) hmem hkey
      obtain ⟨n, hn, -⟩ := h.exists_position?_next hd hentry
      have hset := (h.get?_matrix_eq_some_iff hd hevent).2 ⟨entry, hget, hsame ▸ hother, hn⟩
      rw [hcell] at hset
      contradiction

theorem next?_eq_or (h : t.WellFormed) (hlabels : (t.index.events.map Ident.label).Nodup)
    (hlabel : t.index.label? j = some trigger) :
    t.next? i trigger = (t.matrix.get? i j).or (t.defaultNext? i) := by
  cases hcell : t.matrix.get? i j with
  | some n => rw [h.next?_of_get?_matrix hlabel hcell, Option.some_or]
  | none =>
      rw [Option.none_or]
      cases hd : t.dictionary? i with
      | none => rw [next?_of_dictionary?_eq_none hd, defaultNext?_of_dictionary?_eq_none hd]
      | some d =>
          exact next?_of_get?_eq_none hd
            (h.get?_eq_none_of_get?_matrix hlabels hd hlabel hcell)

theorem foldl_next?_eq_walk (h : t.WellFormed)
    (hlabels : (t.index.events.map Ident.label).Nodup) {firings : List Firing} {events : List Nat}
    (hevents : firings.map (fun f => some f.trigger) = events.map t.index.label?) :
    firings.foldl (fun p f => (t.next? p f.trigger).getD p) i =
      t.matrix.walk t.defaultNext? i events := by
  induction firings generalizing i events with
  | nil =>
      obtain rfl : events = [] := by simpa using hevents.symm
      rfl
  | cons firing firings ih =>
      cases events with
      | nil => contradiction
      | cons j events =>
          obtain ⟨hfirst, hrest⟩ := List.cons.inj hevents
          rw [List.foldl_cons, h.next?_eq_or hlabels hfirst.symm]
          exact ih hrest

end Table.WellFormed

/-- The firing does what the cell and, where it is empty, the default say. -/
structure Machine.Follows (cell default? : Option Nat) (m : Machine) (trigger : String)
    (outcome : Except MachineError Value × Machine) : Prop where
  movedTo_iff : ∀ n, MovedTo outcome n ↔ cell = some n ∨ cell = none ∧ default? = some n
  refused_iff : Refused m trigger outcome ↔ cell = none ∧ default? = none

/-- Running a machine and walking along the unpacked matrix visit the same positions.  A set cell is
followed in any case; for the empty ones no two events may share a label.  Positions are words, of
which there are more than a table has states. -/
theorem Table.fire_follows_unpack {lines : List Line} {t : Table} {options : PackOptions}
    {tokens : NameTokens} {p : PackedTable} (hbuild : Table.build lines = .ok t)
    (hsize : t.size < UInt64.size) (hpack : t.pack options tokens = .ok p) :
    ∃ matrix, p.unpack = .ok matrix ∧
      (∀ (m : Machine) (j n : Nat) (trigger : String), m.table = t →
        t.index.label? j = some trigger → matrix.get? m.current j = some n →
        ∀ {σ : Type} (run : Behaviors σ) (args : List Value) (now : Timestamp) (shared : σ),
          Machine.MovedTo ((m.fire run trigger args now).run shared).1 n) ∧
      ((t.index.events.map Ident.label).Nodup →
        ∀ (start : Ident) (m : Machine), Machine.ofStart t start = .ok m →
        ∀ (events : List Nat) (firings : List Firing),
          firings.map (fun f => some f.trigger) = events.map t.index.label? →
        ∀ {σ : Type} (run : Behaviors σ) (shared : σ),
          let reached := ((m.fireAll run firings).run shared).1
          reached.current = matrix.walk t.defaultNext? m.current events ∧
          ∀ (j : Nat) (trigger : String), t.index.label? j = some trigger →
          ∀ (args : List Value) (now : Timestamp) (shared : σ),
            reached.Follows (matrix.get? reached.current j) (t.defaultNext? reached.current)
              trigger ((reached.fire run trigger args now).run shared).1) := by
  have h := wellFormed_of_build hbuild
  refine ⟨t.matrix, unpack_of_pack hsize hpack, ?_, ?_⟩
  · intro m j n trigger htable hlabel hcell σ run args now shared
    rw [Machine.movedTo_fire_iff run args now shared h htable]
    exact h.next?_of_get?_matrix hlabel hcell
  · intro hlabels start m hstart events firings hevents σ run shared
    obtain ⟨hreached, hcurrent⟩ :=
      Machine.runsOn_fireAll h (Machine.runsOn_ofStart h hstart) run firings shared
    refine ⟨hcurrent.trans (h.foldl_next?_eq_walk hlabels hevents), ?_⟩
    intro j trigger hlabel args now shared
    have hnext : ∀ i, t.next? i trigger = (t.matrix.get? i j).or (t.defaultNext? i) :=
      fun _ => h.next?_eq_or hlabels hlabel
    constructor
    · intro n
      rw [Machine.movedTo_fire_iff run args now shared h hreached.table_eq, hnext,
        Option.or_eq_some_iff]
    · rw [Machine.refused_fire_iff run args now shared h hreached.table_eq, hnext,
        Option.or_eq_none_iff]

/-- The machine goes by the cell of `go` from `A` to `B`, by the default entry back and on again. -/
theorem Table.fire_follows_unpack_of_go :
    ∃ t p m firing, Table.build [⟨1, ⟨true, false⟩, .text "A", .text "B", some (.text "go")⟩,
        ⟨2, ⟨true, false⟩, .text "B", .text "A", none⟩] = .ok t ∧
      t.size < UInt64.size ∧ t.pack .standard (fun _ _ => "abcdefgh") = .ok p ∧
      (t.index.events.map Ident.label).Nodup ∧ Machine.ofStart t (.text "A") = .ok m ∧
      firing = (⟨"go", [], .ofSecondOfDay (.firstOfYear 2024) 0 0⟩ : Firing) ∧
      t.index.label? 0 = some firing.trigger ∧
      ∃ matrix, p.unpack = .ok matrix ∧
        let reached := ((m.fireAll (fun _ _ => pure .null) [firing, firing, firing]).run ()).1
        reached.current = 1 ∧ reached.history.steps.map Step.trigger = ["go", "", "go"] ∧
        reached.current = matrix.walk t.defaultNext? m.current [0, 0, 0] := by
  have hlayout : PackOptions.standard.layout = .fixedWidth := rfl
  refine ⟨_, _, _, _, rfl, by decide, pack_eq_ok (by decide) hlayout _, by decide, rfl, rfl, rfl,
    ?_⟩
  obtain ⟨matrix, hunpack, -, hrun⟩ := Table.fire_follows_unpack
    (show Table.build [⟨1, ⟨true, false⟩, .text "A", .text "B", some (.text "go")⟩,
      ⟨2, ⟨true, false⟩, .text "B", .text "A", none⟩] = .ok _ from rfl)
    (by decide) (pack_eq_ok (by decide) hlayout fun _ _ => "abcdefgh")
  refine ⟨matrix, hunpack, rfl, by decide, ?_⟩
  exact (hrun (by decide) (.text "A") _ rfl [0, 0, 0] _ rfl (fun _ _ => pure .null) ()).1

end StateDiagram
