import StateDiagram.Calendar.Timestamp

/-!
# Histories

The transitions that a machine has made.  States are recorded by their table positions.
-/

namespace StateDiagram

structure Step where
  source : Nat
  target : Nat
  /-- The key of the entry that was taken; empty for the default entry. -/
  trigger : String
  time : Timestamp
  deriving DecidableEq, Repr

namespace Step

def isDefault (step : Step) : Bool := step.trigger = ""

end Step

structure History where
  steps : List Step
  deriving DecidableEq, Repr

namespace History

def empty : History := ⟨[]⟩

def record (h : History) (step : Step) : History := ⟨h.steps ++ [step]⟩

def size (h : History) : Nat := h.steps.length

def isEmpty (h : History) : Bool := h.steps.isEmpty

def path (h : History) : List Nat :=
  match h.steps with
  | [] => []
  | first :: _ => first.source :: h.steps.map Step.target

/-- Nanoseconds from the first step to the last; none if time ran backwards. -/
def duration? (h : History) : Option Nat := do
  let first ← h.steps.head?
  let last ← h.steps.getLast?
  first.time.until? last.time

@[simp] theorem size_record (h : History) (step : Step) :
    (h.record step).size = h.size + 1 := by
  simp [record, size]

@[simp] theorem path_empty : empty.path = [] := rfl

theorem length_path (h : History) :
    h.path.length = if h.isEmpty then 0 else h.size + 1 := by
  obtain ⟨steps⟩ := h
  cases steps <;> simp [path, isEmpty, size]

end History

end StateDiagram
