import StateDiagram.Proofs.Table.Tabulated

/-!
# Lines that point one way

An arrow to the left is the arrow to the right with its ends changed over, and an arrow both ways
is one of each.  A line both ways makes the defaults of both its ends before it places its event for
either of them, where two lines finish with one end first.  The order makes no difference to any
table, not even where the two ends are one state.
-/

namespace StateDiagram

namespace Line

def forward (line : Line) : Line := { line with arrow := ⟨true, false⟩ }

/-- The way from right to left, written from left to right. -/
def backward (line : Line) : Line :=
  { line with arrow := ⟨true, false⟩, left := line.right, right := line.left }

/-- The line written with arrows to the right only, all under its own number.  A line of neither
direction has nothing to turn. -/
def straightened (line : Line) : List Line :=
  match line.arrow with
  | ⟨true, false⟩ => [line]
  | ⟨false, true⟩ => [line.backward]
  | ⟨true, true⟩ => [line.forward, line.backward]
  | ⟨false, false⟩ => [line]

theorem toLeft_of_mem_straightened {line part : Line} (h : part ∈ line.straightened) :
    part.arrow.toLeft = false := by
  rw [straightened] at h
  split at h
  · next harrow => rw [List.mem_singleton.1 h, harrow]
  · rw [List.mem_singleton.1 h, backward]
  · rcases List.mem_pair.1 h with rfl | rfl <;> rfl
  · next harrow => rw [List.mem_singleton.1 h, harrow]

end Line

namespace Table

/-! ## Changing one dictionary after another -/

variable {t : Table} {state other : Ident}

theorem modify_modify (t : Table) (state : Ident) (first second : Dictionary → Dictionary) :
    (t.modify state first).modify state second = t.modify state fun d => second (first d) := by
  rw [modify, get?_modify_self, Option.getD_some, modify, Assoc.put_put]
  rfl

theorem modify_comm (hne : state ≠ other) (h : state ∈ t.states)
    (first second : Dictionary → Dictionary) :
    (t.modify state first).modify other second = (t.modify other second).modify state first := by
  rw [modify, get?_modify_of_ne (Ne.symm hne), modify.eq_def (t.modify other second),
    get?_modify_of_ne hne, modify, modify, Assoc.put_comm hne h]

theorem register_of_mem (h : state ∈ t.states) : t.register state = t := by
  cases hd : t.get? state with
  | none => exact absurd h (Assoc.lookup_eq_none_iff_not_mem.1 hd)
  | some d =>
      rw [register, modify, hd, Option.getD_some, id, Assoc.put_of_lookup hd]

theorem register_of_not_mem (h : state ∉ t.states) :
    t.register state = ⟨t.rows ++ [(state, .empty)]⟩ := by
  have hget : t.get? state = none := Assoc.lookup_eq_none_iff_not_mem.2 h
  have hput := Assoc.put_append_of_not_mem h Dictionary.empty []
  rw [List.append_nil] at hput
  rw [register, modify, hget]
  exact congrArg Table.mk hput

theorem mem_states_register (t : Table) (state : Ident) : state ∈ (t.register state).states := by
  rw [register, states_modify]
  split <;> simp [*]

theorem mem_states_modify (h : state ∈ t.states) (other : Ident)
    (change : Dictionary → Dictionary) : state ∈ (t.modify other change).states := by
  rw [states_modify]
  split <;> simp [h]

/-! ## The two ways of a line -/

theorem addDefault_of_mem {source target : Ident} (hsource : source ∈ t.states)
    (htarget : target ∈ t.states) :
    t.addDefault (source, target) =
      t.modify source (·.insert defaultKey (.leadingTo target none)) := by
  simp only [addDefault, register_of_mem hsource, register_of_mem htarget]

theorem mem_states_addDefault (t : Table) (source target : Ident) :
    source ∈ (t.addDefault (source, target)).states ∧
      target ∈ (t.addDefault (source, target)).states :=
  ⟨mem_states_modify (mem_states_modify (mem_states_register t source) target id) source _,
    mem_states_modify (mem_states_register _ target) source _⟩

/-- A default entry that is made right before an event is placed leaves no trace. -/
theorem addNamed_addDefault {source target : Ident} (hsource : source ∈ t.states)
    (htarget : target ∈ t.states) (event : Ident) :
    (t.addDefault (source, target)).addNamed event (source, target) =
      t.addNamed event (source, target) := by
  rw [addDefault_of_mem hsource htarget, addNamed, modify_modify]
  simp only [Dictionary.erase_insert_self]
  rfl

theorem mem_states_addNamed (h : state ∈ t.states) (event : Ident) (move : Ident × Ident) :
    state ∈ (t.addNamed event move).states := mem_states_modify h move.1 _

/-- The default for the way back may be made before or after the event is placed for the way there.
-/
theorem addNamed_addNamed_addDefault {left right : Ident} (hleft : left ∈ t.states)
    (hright : right ∈ t.states) (event : Ident) :
    ((t.addDefault (right, left)).addNamed event (left, right)).addNamed event (right, left) =
      ((t.addNamed event (left, right)).addDefault (right, left)).addNamed event (right, left) := by
  have hleft' := mem_states_addNamed hleft event (left, right)
  have hright' := mem_states_addNamed hright event (left, right)
  by_cases hne : right = left
  · -- One dictionary gets both defaults and both events, and either event takes a default away.
    subst hne
    rw [addNamed_addDefault hleft hleft, addNamed_addDefault hleft' hleft']
  · have hswap : (t.addDefault (right, left)).addNamed event (left, right) =
        (t.addNamed event (left, right)).addDefault (right, left) := by
      rw [addDefault_of_mem hright hleft, addDefault_of_mem hright' hleft']
      exact modify_comm hne hright _ _
    rw [hswap]

/-! ## Straightened lines -/

theorem addLine_backward (t : Table) {line : Line} (h : line.arrow = ⟨false, true⟩) :
    t.addLine line.backward = t.addLine line := by
  simp [addLine, Line.moves, Line.backward, h]

theorem addLine_forward_backward (t : Table) {line : Line} (h : line.arrow = ⟨true, true⟩) :
    (t.addLine line.forward >>= fun t => t.addLine line.backward) = t.addLine line := by
  obtain ⟨number, arrow, left, right, event⟩ := line
  subst h
  obtain ⟨hleft, hright⟩ := mem_states_addDefault t left right
  cases event with
  | none => rfl
  | some event =>
      by_cases hlabel : event.label = ""
      · simp [addLine, hlabel, bind, Except.bind, Line.forward]
      · simp [addLine, hlabel, bind, Except.bind, Line.forward, Line.backward, Line.moves,
          addNamed_addNamed_addDefault hleft hright]

/-- A line does to any table what its straightened lines do to it one after the other. -/
theorem foldlM_straightened (t : Table) (line : Line) :
    line.straightened.foldlM addLine t = t.addLine line := by
  rw [Line.straightened]
  split
  · simp
  · next h => simpa using addLine_backward t h
  · next h => simpa using addLine_forward_backward t h
  · simp

theorem foldlM_flatMap_straightened (t : Table) (lines : List Line) :
    (lines.flatMap Line.straightened).foldlM addLine t = lines.foldlM addLine t := by
  induction lines generalizing t with
  | nil => rfl
  | cons line lines ih =>
      rw [List.flatMap_cons, List.foldlM_append, foldlM_straightened, List.foldlM_cons]
      simp only [ih]

/-- Arrows to the left and both ways are a manner of writing.  Straightened, a diagram has none of
them left, and it fails with the same error or builds the same table, as each of its lines does
from any table. -/
theorem build_straightened (lines : List Line) :
    (∀ part ∈ lines.flatMap Line.straightened, part.arrow.toLeft = false) ∧
    (∀ t, ∀ line ∈ lines, line.straightened.foldlM addLine t = t.addLine line) ∧
    build (lines.flatMap Line.straightened) = build lines := by
  refine ⟨?_, fun t line _ => foldlM_straightened t line, foldlM_flatMap_straightened empty lines⟩
  intro part hpart
  obtain ⟨line, -, hmem⟩ := List.mem_flatMap.1 hpart
  exact Line.toLeft_of_mem_straightened hmem

/-- A loop both ways overrides a default, and a line to the left then overrides the loop. -/
theorem build_straightened_of_loop :
    let loop : Line := ⟨2, ⟨true, true⟩, .text "A", .text "A", some (.text "go")⟩
    let back : Line := ⟨3, ⟨false, true⟩, .text "B", .text "A", some (.text "go")⟩
    let lines : List Line := [⟨1, ⟨true, true⟩, .text "A", .text "B", none⟩, loop, back]
    (loop ∈ lines ∧ loop.straightened.foldlM addLine empty = empty.addLine loop) ∧
      lines.flatMap Line.straightened =
        [⟨1, ⟨true, false⟩, .text "A", .text "B", none⟩,
          ⟨1, ⟨true, false⟩, .text "B", .text "A", none⟩,
          ⟨2, ⟨true, false⟩, .text "A", .text "A", some (.text "go")⟩,
          ⟨2, ⟨true, false⟩, .text "A", .text "A", some (.text "go")⟩,
          ⟨3, ⟨true, false⟩, .text "A", .text "B", some (.text "go")⟩] ∧
      build (lines.flatMap Line.straightened) = build lines ∧
      build lines = .ok ⟨[(.text "A", ⟨[("go", .leadingTo (.text "B") (some (.text "go")))]⟩),
        (.text "B", ⟨[("", .leadingTo (.text "A") none)]⟩)]⟩ := by
  intro loop back lines
  obtain ⟨-, hline, hbuild⟩ := build_straightened lines
  have hloop : loop ∈ lines := by simp [lines]
  exact ⟨⟨hloop, hline empty loop hloop⟩, rfl, hbuild, by decide +kernel⟩

end Table

end StateDiagram
