import StateDiagram.Proofs.Tabulation
import StateDiagram.Table.Build

/-!
# Tabulated transition tables

A table is given by its states and a dictionary for each of them.  The steps of the builder then add
states at the end and change the dictionary of one state.
-/

namespace StateDiagram

namespace Dictionary

/-! ## One more line leaves a state -/

/-- The dictionary of a state once a line has left it with this entry. -/
def place (d : Dictionary) (entry : Entry) : Dictionary :=
  match entry.event with
  | none => d.insert defaultKey entry
  | some event => (d.erase defaultKey).insert event.label entry

theorem insert_insert (d : Dictionary) (key : String) (entry old : Entry) :
    (d.insert key old).insert key entry = d.insert key entry :=
  congrArg mk (Assoc.put_put key entry old d.entries)

theorem erase_erase (d : Dictionary) (key : String) : (d.erase key).erase key = d.erase key :=
  congrArg mk (Assoc.erase_erase key d.entries)

theorem erase_insert_self (d : Dictionary) (key : String) (entry : Entry) :
    (d.insert key entry).erase key = d.erase key :=
  congrArg mk (Assoc.erase_put_self key entry d.entries)

theorem erase_insert_of_ne {key other : String} (h : other ≠ key) (d : Dictionary)
    (entry : Entry) : (d.insert other entry).erase key = (d.erase key).insert other entry :=
  congrArg mk (Assoc.erase_put_of_ne h entry d.entries)

theorem place_place {entry : Entry} (h : ∀ event, entry.event = some event →
    event.label ≠ defaultKey) (d : Dictionary) : (d.place entry).place entry = d.place entry := by
  cases hevent : entry.event with
  | none => simp only [place, hevent, insert_insert]
  | some event =>
      simp only [place, hevent]
      rw [erase_insert_of_ne (h event hevent), erase_erase, insert_insert]

/-- The default entry that a line with an event starts from leaves no trace. -/
theorem place_default_place (d : Dictionary) (next event : Ident) :
    (d.place (.leadingTo next none)).place (.leadingTo next (some event)) =
      d.place (.leadingTo next (some event)) := by
  simp only [place, Entry.leadingTo, erase_insert_self]

end Dictionary

/-! ## Tables by states and dictionaries -/

namespace Table

/-- The table with these states and their dictionaries. -/
def tabulate (states : List Ident) (dictionary : Ident → Dictionary) : Table :=
  ⟨states.map fun state => (state, dictionary state)⟩

/-- No state stands twice, and outside the states every dictionary is empty. -/
structure Supports (states : List Ident) (dictionary : Ident → Dictionary) : Prop where
  nodup : states.Nodup
  eq_empty : ∀ state ∉ states, dictionary state = .empty

variable {states : List Ident} {dictionary : Ident → Dictionary}

namespace Supports

theorem addKey (h : Supports states dictionary) (state : Ident) :
    Supports (Assoc.addKey states state) dictionary where
  nodup := Assoc.nodup_addKey h.nodup
  eq_empty := fun s hs => h.eq_empty s fun hmem => hs (Assoc.mem_addKey.2 (.inr hmem))

theorem change (h : Supports states dictionary) {state : Ident} (hstate : state ∈ states)
    (change : Dictionary → Dictionary) :
    Supports states fun s => if s = state then change (dictionary s) else dictionary s where
  nodup := h.nodup
  eq_empty := by
    intro s hs
    rw [if_neg]
    · exact h.eq_empty s hs
    · rintro rfl
      exact hs hstate

end Supports

@[simp] theorem states_tabulate (states : List Ident) (dictionary : Ident → Dictionary) :
    (tabulate states dictionary).states = states := by
  simp [tabulate, Table.states, Function.comp_def]

theorem get?_tabulate (states : List Ident) (dictionary : Ident → Dictionary) (state : Ident) :
    (tabulate states dictionary).get? state =
      if state ∈ states then some (dictionary state) else none := by
  rw [tabulate, get?, ← Assoc.tabulate_some, Assoc.lookup_tabulate]

/-! ## The steps of the builder -/

theorem modify_tabulate (h : Supports states dictionary) (state : Ident)
    (change : Dictionary → Dictionary) :
    (tabulate states dictionary).modify state change =
      tabulate (Assoc.addKey states state) fun s =>
        if s = state then change (dictionary s) else dictionary s := by
  have hget : ((tabulate states dictionary).get? state).getD .empty = dictionary state := by
    rw [get?_tabulate]
    split
    · rfl
    · next hstate => exact (h.eq_empty state hstate).symm
  have hput := Assoc.put_tabulate h.nodup (fun s => some (dictionary s)) (fun _ _ => rfl) state
    (change (dictionary state))
  rw [modify, hget, tabulate, ← Assoc.tabulate_some, hput, tabulate, ← Assoc.tabulate_some]
  congr 2
  funext s
  by_cases hs : s = state <;> simp [hs]

theorem register_tabulate (h : Supports states dictionary) (state : Ident) :
    (tabulate states dictionary).register state =
      tabulate (Assoc.addKey states state) dictionary := by
  rw [register, modify_tabulate h]
  congr 1
  funext s
  split <;> rfl

theorem mem_addKey_addKey (states : List Ident) (source target : Ident) :
    source ∈ Assoc.addKey (Assoc.addKey states source) target :=
  Assoc.mem_addKey.2 (.inr (Assoc.mem_addKey.2 (.inl rfl)))

theorem addDefault_tabulate (h : Supports states dictionary) (move : Ident × Ident) :
    (tabulate states dictionary).addDefault move =
      tabulate (Assoc.addKey (Assoc.addKey states move.1) move.2) fun s =>
        if s = move.1 then (dictionary s).place (.leadingTo move.2 none)
        else dictionary s := by
  rw [addDefault, register_tabulate h, register_tabulate (h.addKey move.1),
    modify_tabulate ((h.addKey move.1).addKey move.2),
    Assoc.addKey_of_mem (mem_addKey_addKey states move.1 move.2)]
  rfl

theorem addNamed_tabulate (h : Supports states dictionary) (event : Ident)
    (move : Ident × Ident) :
    (tabulate states dictionary).addNamed event move =
      tabulate (Assoc.addKey states move.1) fun s =>
        if s = move.1 then (dictionary s).place (.leadingTo move.2 (some event))
        else dictionary s :=
  modify_tabulate h _ _

/-! ## The moves of a line -/

variable {event : Option Ident} {step : Table → Ident × Ident → Table}
  {grow : List Ident → Ident × Ident → List Ident}

/-- A step that adds the source of a move, and maybe other states, and gives the source one more
entry does so along a list of moves. -/
theorem foldl_tabulate
    (hstep : ∀ {states dictionary}, Supports states dictionary → ∀ move,
      step (tabulate states dictionary) move = tabulate (grow states move) fun s =>
        if s = move.1 then (dictionary s).place (.leadingTo move.2 event) else dictionary s)
    (hgrow : ∀ {states dictionary}, Supports states dictionary → ∀ move,
      Supports (grow states move) dictionary ∧ move.1 ∈ grow states move)
    (h : Supports states dictionary) (moves : List (Ident × Ident)) :
    moves.foldl step (tabulate states dictionary) =
        tabulate (moves.foldl grow states) (fun s => moves.foldl (fun d move =>
          if s = move.1 then d.place (.leadingTo move.2 event) else d) (dictionary s)) ∧
      Supports (moves.foldl grow states) (fun s => moves.foldl (fun d move =>
          if s = move.1 then d.place (.leadingTo move.2 event) else d) (dictionary s)) := by
  induction moves generalizing states dictionary with
  | nil => exact ⟨rfl, h⟩
  | cons move moves ih =>
      obtain ⟨hsupports, hsource⟩ := hgrow h move
      simp only [List.foldl_cons, hstep h move]
      exact ih (hsupports.change hsource fun d => d.place (.leadingTo move.2 event))

theorem foldl_addDefault_tabulate (h : Supports states dictionary)
    (moves : List (Ident × Ident)) :
    moves.foldl addDefault (tabulate states dictionary) =
        tabulate (moves.foldl (fun keys move => Assoc.addKey (Assoc.addKey keys move.1) move.2)
          states) (fun s => moves.foldl (fun d move =>
          if s = move.1 then d.place (.leadingTo move.2 none) else d) (dictionary s)) ∧
      Supports (moves.foldl (fun keys move => Assoc.addKey (Assoc.addKey keys move.1) move.2)
          states) (fun s => moves.foldl (fun d move =>
          if s = move.1 then d.place (.leadingTo move.2 none) else d) (dictionary s)) :=
  foldl_tabulate addDefault_tabulate
    (fun h move => ⟨(h.addKey move.1).addKey move.2, mem_addKey_addKey _ _ _⟩) h moves

theorem foldl_addNamed_tabulate (h : Supports states dictionary) (event : Ident)
    (moves : List (Ident × Ident)) :
    moves.foldl (addNamed event) (tabulate states dictionary) =
      tabulate (moves.foldl (fun keys move => Assoc.addKey keys move.1) states)
        fun s => moves.foldl (fun d move =>
          if s = move.1 then d.place (.leadingTo move.2 (some event)) else d) (dictionary s) :=
  (foldl_tabulate (fun h => addNamed_tabulate h event)
    (fun h move => ⟨h.addKey move.1, Assoc.mem_addKey.2 (.inl rfl)⟩) h moves).1

end Table

end StateDiagram
