/-!
# Lists read element by element

A list is read by a function that may refuse an element.  The first refusal ends the reading, and
without one every element is read.
-/

namespace StateDiagram

variable {α β ε : Type} {f : α → Except ε β} {l : List α}

theorem map_eq_ok_iff {read : Except ε α} {g : α → β} {b : β} :
    read.map g = .ok b ↔ ∃ a, read = .ok a ∧ g a = b := by
  cases read <;> simp [Except.map]

theorem map_eq_error_iff {read : Except ε α} {g : α → β} {e : ε} :
    read.map g = .error e ↔ read = .error e := by
  cases read <;> simp [Except.map]

theorem bind_eq_ok_iff {read : Except ε α} {next : α → Except ε β} {b : β} :
    (read >>= next) = .ok b ↔ ∃ a, read = .ok a ∧ next a = .ok b := by
  cases read <;> simp [bind, Except.bind]

theorem isOk_iff_of_eq_ok_iff {read : Except ε β} {passes : Prop} {b : β}
    (h : ∀ c, read = .ok c ↔ passes ∧ c = b) : read.isOk = true ↔ passes := by
  have hok : read.isOk = true ↔ ∃ c, read = .ok c := by
    cases read <;> simp [Except.isOk, Except.toBool]
  simp [hok, h]

theorem mapM_of_find?_not_isOk {a : α} (h : l.find? (fun a => !(f a).isOk) = some a) :
    ∃ e, f a = .error e ∧ l.mapM f = .error e := by
  induction l with
  | nil => contradiction
  | cons first rest ih =>
      rw [List.mapM_cons]
      cases hfirst : f first with
      | error e =>
          rw [List.find?_cons_of_pos (by simp [hfirst, Except.isOk, Except.toBool])] at h
          cases h
          exact ⟨e, hfirst, rfl⟩
      | ok b =>
          rw [List.find?_cons_of_neg (by simp [hfirst, Except.isOk, Except.toBool])] at h
          obtain ⟨e, ha, hrest⟩ := ih h
          exact ⟨e, ha, by rw [hrest]; rfl⟩

theorem mapM_of_find?_not_isOk_eq_none (h : l.find? (fun a => !(f a).isOk) = none) :
    ∃ bs, l.mapM f = .ok bs ∧ l.map f = bs.map .ok := by
  induction l with
  | nil => exact ⟨[], rfl, rfl⟩
  | cons first rest ih =>
      rw [List.mapM_cons, List.map_cons]
      cases hfirst : f first with
      | error e =>
          rw [List.find?_cons_of_pos (by simp [hfirst, Except.isOk, Except.toBool])] at h
          contradiction
      | ok b =>
          rw [List.find?_cons_of_neg (by simp [hfirst, Except.isOk, Except.toBool])] at h
          obtain ⟨bs, hrest, hmap⟩ := ih h
          exact ⟨b :: bs, by rw [hrest]; rfl, by rw [hmap]; rfl⟩

theorem mapM_eq_error_iff_find? {e : ε} :
    l.mapM f = .error e ↔ ∃ a, l.find? (fun a => !(f a).isOk) = some a ∧ f a = .error e := by
  cases hfind : l.find? (fun a => !(f a).isOk) with
  | none =>
      obtain ⟨bs, hok, -⟩ := mapM_of_find?_not_isOk_eq_none hfind
      simp [hok]
  | some a =>
      obtain ⟨found, ha, herror⟩ := mapM_of_find?_not_isOk hfind
      simp [ha, herror]

theorem mapM_eq_error_iff {e : ε} :
    l.mapM f = .error e ↔ ∃ (i : Nat) (a : α), l[i]? = some a ∧ f a = .error e ∧
      ∀ j < i, ∀ b, l[j]? = some b → (f b).isOk = true := by
  simp only [mapM_eq_error_iff_find?, List.find?_eq_some_iff_getElem]
  constructor
  · rintro ⟨a, ⟨-, i, hlt, hget, hbefore⟩, ha⟩
    refine ⟨i, a, List.getElem?_eq_some_iff.2 ⟨hlt, hget⟩, ha, fun j hj b hb => ?_⟩
    obtain ⟨_, rfl⟩ := List.getElem?_eq_some_iff.1 hb
    simpa using hbefore j hj
  · rintro ⟨i, a, hi, ha, hbefore⟩
    obtain ⟨hlt, hget⟩ := List.getElem?_eq_some_iff.1 hi
    refine ⟨a, ⟨by simp [ha, Except.isOk, Except.toBool], i, hlt, hget, fun j hj => ?_⟩, ha⟩
    simpa using hbefore j hj _ (List.getElem?_eq_getElem (Nat.lt_trans hj hlt))

theorem mapM_eq_ok_iff {passes : α → Prop} {g : α → β}
    (hf : ∀ a b, f a = .ok b ↔ passes a ∧ b = g a) {bs : List β} :
    l.mapM f = .ok bs ↔ (∀ a ∈ l, passes a) ∧ bs = l.map g := by
  induction l generalizing bs with
  | nil => simp [pure, Except.pure, eq_comm]
  | cons a l ih =>
      simp only [List.mapM_cons, bind_eq_ok_iff, hf, ih, List.forall_mem_cons, List.map_cons]
      constructor
      · rintro ⟨_, ⟨ha, rfl⟩, _, ⟨hl, rfl⟩, hbs⟩
        exact ⟨⟨ha, hl⟩, (Except.ok.inj hbs).symm⟩
      · rintro ⟨⟨ha, hl⟩, rfl⟩
        exact ⟨_, ⟨ha, rfl⟩, _, ⟨hl, rfl⟩, rfl⟩

theorem mapM_eq_ok_iff_map {bs : List β} : l.mapM f = .ok bs ↔ l.map f = bs.map .ok := by
  induction l generalizing bs with
  | nil => cases bs <;> simp [pure, Except.pure]
  | cons a l ih =>
      simp only [List.mapM_cons, bind_eq_ok_iff, ih, List.map_cons]
      cases bs <;> simp [pure, Except.pure]

/-- The refused element comes after elements that are read. -/
theorem mapM_eq_error_iff_map {e : ε} :
    l.mapM f = .error e ↔
      ∃ (bs : List β) (rest : List (Except ε β)), l.map f = bs.map .ok ++ .error e :: rest := by
  induction l with
  | nil => simp [pure, Except.pure]
  | cons a l ih =>
      rw [List.mapM_cons, List.map_cons]
      cases ha : f a with
      | error found =>
          constructor
          · rintro ⟨⟩
            exact ⟨[], l.map f, rfl⟩
          · rintro ⟨bs, rest, hmap⟩
            cases bs with
            | nil => cases hmap; rfl
            | cons b bs => cases hmap
      | ok b =>
          have hrest : (Except.ok b >>= fun b => l.mapM f >>= fun bs => pure (b :: bs)) =
              .error e ↔ l.mapM f = .error e := map_eq_error_iff
          rw [hrest, ih]
          constructor
          · rintro ⟨bs, rest, hmap⟩
            exact ⟨b :: bs, rest, by rw [hmap]; rfl⟩
          · rintro ⟨bs, rest, hmap⟩
            cases bs with
            | nil => cases hmap
            | cons first bs => exact ⟨bs, rest, (List.cons.inj hmap).2⟩

end StateDiagram
