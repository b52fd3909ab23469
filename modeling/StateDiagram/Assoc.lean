/-!
# Ordered association lists

Lists of keys and values in which a new key goes to the end and a known key keeps its place.
Reading is `List.lookup`; the laws of `put` and `erase` are stated through it and through the keys.
-/

namespace StateDiagram.Assoc

variable {κ : Type} {α : Type} [DecidableEq κ]

/-- Replaces the value of the first entry with the key, or else appends an entry. -/
def put (key : κ) (value : α) : List (κ × α) → List (κ × α)
  | [] => [(key, value)]
  | (k, v) :: rest => if k = key then (key, value) :: rest else (k, v) :: put key value rest

def erase (key : κ) (entries : List (κ × α)) : List (κ × α) :=
  entries.filter fun (k, _) => k ≠ key

@[simp] theorem lookup_put_self (key : κ) (value : α) (entries : List (κ × α)) :
    (put key value entries).lookup key = some value := by
  induction entries with
  | nil => simp [put]
  | cons entry rest ih =>
      obtain ⟨k, v⟩ := entry
      by_cases h : k = key
      · simp [put, h]
      · have hne : (key == k) = false := by simpa using Ne.symm h
        simp [put, h, List.lookup_cons, hne, ih]

theorem lookup_put_of_ne {key other : κ} (h : other ≠ key) (value : α)
    (entries : List (κ × α)) : (put key value entries).lookup other = entries.lookup other := by
  induction entries with
  | nil =>
      have hne : (other == key) = false := by simpa using h
      simp [put, List.lookup_cons, hne]
  | cons entry rest ih =>
      obtain ⟨k, v⟩ := entry
      by_cases hk : k = key
      · have hne : (other == key) = false := by simpa using h
        simp [put, hk, List.lookup_cons, hne]
      · simp [put, hk, List.lookup_cons, ih]

theorem keys_put (key : κ) (value : α) (entries : List (κ × α)) :
    (put key value entries).map Prod.fst =
      if key ∈ entries.map Prod.fst then entries.map Prod.fst
      else entries.map Prod.fst ++ [key] := by
  induction entries with
  | nil => rfl
  | cons entry rest ih =>
      obtain ⟨k, v⟩ := entry
      by_cases h : k = key
      · simp [put, h]
      · simp only [put, h, if_false, List.map_cons, ih, List.mem_cons, Ne.symm h, false_or]
        split <;> simp

@[simp] theorem lookup_erase_self (key : κ) (entries : List (κ × α)) :
    (erase key entries).lookup key = none := by
  simp only [erase, List.lookup_eq_none_iff, List.mem_filter, decide_eq_true_eq]
  rintro entry ⟨-, h⟩
  simpa using Ne.symm h

end StateDiagram.Assoc
