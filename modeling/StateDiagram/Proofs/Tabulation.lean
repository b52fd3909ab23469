import Mathlib.Data.List.Basic
import Mathlib.Data.List.Induction
import Mathlib.Data.Set.Function
import StateDiagram.Assoc

/-!
# Tabulated association lists

An association list without repeated keys is the table of a partial function over its keys.  Putting
an entry changes the function at one point, and the key comes last unless it is there already.  Keys
that are added one after another are the first occurrences of the list of additions.  A map that is
one-to-one on the keys keeps all of this.
-/

namespace StateDiagram.Assoc

/-! ## Keys in order of first occurrence -/

section Keys

variable {κ ι : Type} [DecidableEq κ] [DecidableEq ι]

/-- A known key keeps its place and a new one comes last. -/
def addKey (keys : List κ) (key : κ) : List κ := if key ∈ keys then keys else keys ++ [key]

theorem mem_addKey {key other : κ} {keys : List κ} :
    other ∈ addKey keys key ↔ other = key ∨ other ∈ keys := by
  unfold addKey
  split
  · next h =>
      constructor
      · exact Or.inr
      · rintro (rfl | hother)
        · exact h
        · exact hother
  · simp [or_comm]

theorem addKey_of_mem {key : κ} {keys : List κ} (h : key ∈ keys) : addKey keys key = keys :=
  if_pos h

theorem nodup_addKey {key : κ} {keys : List κ} (h : keys.Nodup) : (addKey keys key).Nodup := by
  unfold addKey
  split
  · exact h
  · next hkey =>
      rw [List.nodup_append]
      refine ⟨h, by simp, ?_⟩
      intro other hother last hlast
      rw [List.mem_singleton.1 hlast]
      rintro rfl
      exact hkey hother

theorem eraseDups_concat (keys : List κ) (key : κ) :
    (keys ++ [key]).eraseDups = addKey keys.eraseDups key := by
  rw [List.eraseDups_append, addKey]
  by_cases h : key ∈ keys
  · simp [h, List.removeAll]
  · simp [h, List.removeAll, List.eraseDups_cons]

theorem eraseDups_append_eq_foldl (keys more : List κ) :
    (keys ++ more).eraseDups = more.foldl addKey keys.eraseDups := by
  induction more generalizing keys with
  | nil => simp
  | cons key more ih =>
      rw [List.append_cons, ih, eraseDups_concat, List.foldl_cons]

theorem nodup_eraseDups (keys : List κ) : keys.eraseDups.Nodup := by
  induction keys using List.reverseRecOn with
  | nil => simp
  | append_singleton keys key ih =>
      rw [eraseDups_concat]
      exact nodup_addKey ih

theorem eraseDups_of_nodup {keys : List κ} (h : keys.Nodup) : keys.eraseDups = keys := by
  induction keys using List.reverseRecOn with
  | nil => rfl
  | append_singleton keys key ih =>
      obtain ⟨hkeys, -, hne⟩ := List.nodup_append.1 h
      have hkey : key ∉ keys := fun hmem => hne key hmem key (by simp) rfl
      rw [eraseDups_concat, ih hkeys, addKey, if_neg hkey]

/-- The key that is met first comes first. -/
theorem pairwise_idxOf_eraseDups (keys : List κ) :
    keys.eraseDups.Pairwise fun key later => keys.idxOf key < keys.idxOf later := by
  induction keys using List.reverseRecOn with
  | nil => simp
  | append_singleton keys last ih =>
      have hold : keys.eraseDups.Pairwise fun key later =>
          (keys ++ [last]).idxOf key < (keys ++ [last]).idxOf later := by
        refine ih.imp_of_mem ?_
        intro key later hkey hlater hlt
        rw [List.mem_eraseDups] at hkey hlater
        rwa [List.idxOf_append_of_mem hkey, List.idxOf_append_of_mem hlater]
      rw [eraseDups_concat, addKey]
      split
      · exact hold
      · next hlast =>
          refine List.pairwise_append.2 ⟨hold, List.pairwise_singleton _ _, ?_⟩
          intro key hkey later hlater
          rw [List.mem_eraseDups] at hlast hkey
          rw [List.mem_singleton.1 hlater, List.idxOf_append_of_mem hkey,
            List.idxOf_append_of_notMem hlast]
          exact Nat.lt_add_right _ (List.idxOf_lt_length_of_mem hkey)

/-- A list in a strict order is known by its members. -/
theorem eq_of_pairwise_of_mem_iff {α : Type} {r : α → α → Prop} (hr : ∀ a b, r a b → ¬ r b a)
    {l l' : List α} (h : l.Pairwise r) (h' : l'.Pairwise r) (hmem : ∀ a, a ∈ l ↔ a ∈ l') :
    l = l' := by
  have hne : ∀ {a b}, r a b → a ≠ b := by
    rintro a _ hab rfl
    exact hr a a hab hab
  have hperm : l.Perm l' := (List.perm_ext_iff_of_nodup (h.imp hne) (h'.imp hne)).2 hmem
  exact hperm.eq_of_pairwise (fun a b _ _ hab hba => absurd hba (hr a b hab)) h h'

theorem eraseDups_perm {keys again : List κ} (h : keys.Perm again) :
    keys.eraseDups.Perm again.eraseDups := by
  rw [List.perm_ext_iff_of_nodup (nodup_eraseDups keys) (nodup_eraseDups again)]
  intro key
  rw [List.mem_eraseDups, List.mem_eraseDups, h.mem_iff]

theorem addKey_map {f : κ → ι} {keys : List κ} {key : κ}
    (h : Set.InjOn f {k | k = key ∨ k ∈ keys}) :
    addKey (keys.map f) (f key) = (addKey keys key).map f := by
  have hmem : f key ∈ keys.map f ↔ key ∈ keys := by
    constructor
    · intro hmap
      obtain ⟨other, hother, heq⟩ := List.mem_map.1 hmap
      rwa [← h (.inr hother) (.inl rfl) heq]
    · exact List.mem_map_of_mem
  simp only [addKey, hmem]
  split <;> simp

theorem eraseDups_map {f : κ → ι} {keys : List κ} (h : Set.InjOn f {key | key ∈ keys}) :
    (keys.map f).eraseDups = keys.eraseDups.map f := by
  induction keys using List.reverseRecOn with
  | nil => rfl
  | append_singleton keys key ih =>
      have hkeys := ih (h.mono fun k hk => List.mem_append_left _ hk)
      have hinj : Set.InjOn f {k | k = key ∨ k ∈ keys.eraseDups} := by
        refine h.mono ?_
        rintro k (rfl | hk)
        · exact List.mem_append_right _ (List.mem_singleton_self k)
        · exact List.mem_append_left _ (List.mem_eraseDups.1 hk)
      rw [List.map_append, List.map_singleton, eraseDups_concat, eraseDups_concat, hkeys,
        addKey_map hinj]

end Keys

/-! ## The table of a partial function -/

section Tabulate

variable {κ : Type} {α : Type}

/-- The entries of the keys at which the function has a value. -/
def tabulate (keys : List κ) (value? : κ → Option α) : List (κ × α) :=
  keys.filterMap fun key => (value? key).map fun value => (key, value)

theorem mem_tabulate {keys : List κ} {value? : κ → Option α} {key : κ} {value : α} :
    (key, value) ∈ tabulate keys value? ↔ key ∈ keys ∧ value? key = some value := by
  simp [tabulate, List.mem_filterMap]

theorem tabulate_congr {keys : List κ} {f g : κ → Option α} (h : ∀ key ∈ keys, f key = g key) :
    tabulate keys f = tabulate keys g := by
  unfold tabulate
  apply List.filterMap_congr
  intro key hkey
  rw [h key hkey]

theorem tabulate_some (keys : List κ) (value : κ → α) :
    (tabulate keys fun key => some (value key)) = keys.map fun key => (key, value key) := by
  simp [tabulate]

theorem tabulate_map {ι : Type} {β : Type} {f : κ → ι} {g : κ × α → ι × β} {keys : List κ}
    {value? : κ → Option α} {mapped? : ι → Option β}
    (h : ∀ key ∈ keys, (mapped? (f key)).map (fun value => (f key, value)) =
      (value? key).map fun value => g (key, value)) :
    tabulate (keys.map f) mapped? = (tabulate keys value?).map g := by
  rw [tabulate, tabulate, List.filterMap_map, List.map_filterMap]
  apply List.filterMap_congr
  intro key hkey
  rw [Option.map_map]
  exact h key hkey

theorem keys_tabulate {keys : List κ} {value? : κ → Option α}
    (h : ∀ key ∈ keys, (value? key).isSome) : (tabulate keys value?).map Prod.fst = keys := by
  induction keys with
  | nil => rfl
  | cons key keys ih =>
      obtain ⟨value, hvalue⟩ := Option.isSome_iff_exists.1 (h key (by simp))
      have hrest := ih fun other hother => h other (by simp [hother])
      simpa [tabulate, hvalue] using hrest

end Tabulate

variable {κ : Type} {α : Type} [DecidableEq κ]

theorem put_append_of_not_mem {key : κ} {entries : List (κ × α)}
    (h : key ∉ entries.map Prod.fst) (value : α) (rest : List (κ × α)) :
    put key value (entries ++ rest) = entries ++ put key value rest := by
  induction entries with
  | nil => rfl
  | cons entry entries ih =>
      obtain ⟨k, v⟩ := entry
      simp only [List.map_cons, List.mem_cons, not_or] at h
      simp [put, Ne.symm h.1, ih h.2]

theorem put_tabulate {keys : List κ} (hkeys : keys.Nodup) (value? : κ → Option α)
    (h : ∀ key ∈ keys, (value? key).isSome) (key : κ) (value : α) :
    put key value (tabulate keys value?) =
      tabulate (addKey keys key) fun k => if k = key then some value else value? k := by
  induction keys with
  | nil => simp [tabulate, put, addKey]
  | cons first keys ih =>
      obtain ⟨hfirst, hrest⟩ := List.nodup_cons.1 hkeys
      by_cases hk : first = key
      · subst hk
        obtain ⟨old, hold⟩ := Option.isSome_iff_exists.1 (h first (by simp))
        have hsame : tabulate keys value? =
            tabulate keys fun k => if k = first then some value else value? k := by
          apply tabulate_congr
          intro k hmem
          rw [if_neg]
          rintro rfl
          exact hfirst hmem
        rw [addKey_of_mem (by simp)]
        simpa [tabulate, hold, put] using hsame
      · have htail := ih hrest fun k hmem => h k (by simp [hmem])
        have hadd : addKey (first :: keys) key = first :: addKey keys key := by
          simp only [addKey, List.mem_cons, Ne.symm hk, false_or]
          split <;> rfl
        rw [hadd]
        cases hvalue : value? first with
        | none => simpa [tabulate, hvalue, hk] using htail
        | some old => simpa [tabulate, hvalue, hk, put] using htail

theorem lookup_tabulate (keys : List κ) (value? : κ → Option α) (key : κ) :
    (tabulate keys value?).lookup key = if key ∈ keys then value? key else none := by
  induction keys with
  | nil => rfl
  | cons first keys ih =>
      by_cases hk : key = first
      · subst hk
        cases hvalue : value? key with
        | none =>
            simp only [tabulate] at ih
            simp [tabulate, hvalue, ih]
        | some value => simp [tabulate, hvalue]
      · have hne : (key == first) = false := by simpa using hk
        simp only [tabulate] at ih
        cases hvalue : value? first <;> simp [tabulate, hvalue, ih, hk, List.lookup_cons, hne]

theorem lookup_map {ι : Type} {β : Type} [DecidableEq ι] {f : κ → ι} (g : α → β)
    {entries : List (κ × α)} {key : κ}
    (h : Set.InjOn f {k | k = key ∨ k ∈ entries.map Prod.fst}) :
    (entries.map (Prod.map f g)).lookup (f key) = (entries.lookup key).map g := by
  induction entries with
  | nil => rfl
  | cons entry entries ih =>
      obtain ⟨k, value⟩ := entry
      have hsame : (f key == f k) = (key == k) := by
        rw [Bool.eq_iff_iff, beq_iff_eq, beq_iff_eq]
        exact h.eq_iff (.inl rfl) (.inr (by simp))
      have hrest := ih (h.mono fun other hother => hother.imp_right (List.mem_cons_of_mem k))
      rw [List.map_cons, Prod.map_apply, List.lookup_cons, List.lookup_cons, hsame, hrest]
      cases key == k <;> rfl

theorem lookup_eq_none_iff_not_mem {entries : List (κ × α)} {key : κ} :
    entries.lookup key = none ↔ key ∉ entries.map Prod.fst := by
  rw [List.lookup_eq_none_iff, List.mem_map]
  constructor
  · rintro h ⟨entry, hentry, rfl⟩
    simpa using h entry hentry
  · intro h entry hentry
    rw [bne_iff_ne]
    rintro rfl
    exact h ⟨entry, hentry, rfl⟩

theorem lookup_eq_some_iff_mem {entries : List (κ × α)} (h : (entries.map Prod.fst).Nodup)
    {key : κ} {value : α} : entries.lookup key = some value ↔ (key, value) ∈ entries := by
  induction entries with
  | nil => simp
  | cons entry entries ih =>
      obtain ⟨k, v⟩ := entry
      obtain ⟨hfirst, hrest⟩ := List.nodup_cons.1 h
      by_cases hk : key = k
      · subst hk
        have habsent : (key, value) ∉ entries := fun hmem =>
          hfirst (List.mem_map.2 ⟨_, hmem, rfl⟩)
        simp [habsent, eq_comm]
      · have hne : (key == k) = false := by simpa using hk
        simp [List.lookup_cons, hne, hk, ih hrest]

/-! ## Putting twice, and putting beside erasing -/

theorem put_put (key : κ) (value old : α) (entries : List (κ × α)) :
    put key value (put key old entries) = put key value entries := by
  induction entries with
  | nil => simp [put]
  | cons entry entries ih =>
      obtain ⟨k, v⟩ := entry
      by_cases h : k = key <;> simp [put, h, ih]

theorem put_of_lookup {key : κ} {value : α} {entries : List (κ × α)}
    (h : entries.lookup key = some value) : put key value entries = entries := by
  induction entries with
  | nil => contradiction
  | cons entry entries ih =>
      obtain ⟨k, v⟩ := entry
      by_cases hk : k = key
      · subst hk
        simpa [put, eq_comm] using h
      · have hne : (key == k) = false := by simpa using Ne.symm hk
        rw [List.lookup_cons, hne] at h
        simp only [put, if_neg hk, ih h]

theorem modify_eq_put {key : κ} {value : α} {i : Nat} {entries : List (κ × α)}
    (hkeys : (entries.map Prod.fst).Nodup) (h : entries[i]? = some (key, value))
    (change : α → α) :
    entries.modify i (fun (k, v) => (k, change v)) = put key (change value) entries := by
  induction entries generalizing i with
  | nil => contradiction
  | cons entry entries ih =>
      obtain ⟨hfirst, hrest⟩ := List.nodup_cons.1 hkeys
      cases i with
      | zero =>
          obtain rfl : entry = (key, value) := by simpa using h
          simp [put]
      | succ i =>
          rw [List.getElem?_cons_succ] at h
          have hmem : key ∈ entries.map Prod.fst := List.mem_map_of_mem (List.mem_of_getElem? h)
          have hne : entry.1 ≠ key := fun heq => hfirst (heq ▸ hmem)
          rw [List.modify_succ_cons, ih hrest h, put, if_neg hne]

/-- Only a key that is there already keeps its place in both orders. -/
theorem put_comm {key other : κ} (hne : key ≠ other) {entries : List (κ × α)}
    (h : key ∈ entries.map Prod.fst) (value otherValue : α) :
    put other otherValue (put key value entries) =
      put key value (put other otherValue entries) := by
  induction entries with
  | nil => contradiction
  | cons entry entries ih =>
      obtain ⟨k, v⟩ := entry
      by_cases hkey : k = key
      · subst hkey
        simp [put, hne]
      · have hrest : key ∈ entries.map Prod.fst := by simpa [Ne.symm hkey] using h
        by_cases hother : k = other
        · subst hother
          simp [put, hkey]
        · simp [put, hkey, hother, ih hrest]

theorem erase_cons_of_ne {key k : κ} (h : k ≠ key) (value : α) (entries : List (κ × α)) :
    erase key ((k, value) :: entries) = (k, value) :: erase key entries := by
  simp [erase, h]

theorem erase_cons_self (key : κ) (value : α) (entries : List (κ × α)) :
    erase key ((key, value) :: entries) = erase key entries := by
  simp [erase]

theorem erase_put_self (key : κ) (value : α) (entries : List (κ × α)) :
    erase key (put key value entries) = erase key entries := by
  induction entries with
  | nil => exact erase_cons_self key value []
  | cons entry entries ih =>
      obtain ⟨k, v⟩ := entry
      by_cases h : k = key
      · subst h
        simp [put, erase_cons_self]
      · simp [put, h, erase_cons_of_ne h, ih]

theorem erase_put_of_ne {key other : κ} (h : other ≠ key) (value : α)
    (entries : List (κ × α)) :
    erase key (put other value entries) = put other value (erase key entries) := by
  induction entries with
  | nil => exact erase_cons_of_ne h value []
  | cons entry entries ih =>
      obtain ⟨k, v⟩ := entry
      by_cases hk : k = other
      · subst hk
        simp [put, erase_cons_of_ne h]
      · by_cases hkey : k = key
        · subst hkey
          simp [put, hk, erase_cons_self, ih]
        · simp [put, hk, erase_cons_of_ne hkey, ih]

theorem erase_erase (key : κ) (entries : List (κ × α)) :
    erase key (erase key entries) = erase key entries := by
  simp [erase]

theorem erase_of_not_mem {key : κ} {entries : List (κ × α)}
    (h : key ∉ entries.map Prod.fst) : erase key entries = entries := by
  rw [erase, List.filter_eq_self]
  rintro ⟨k, v⟩ hmem
  simp only [decide_eq_true_eq]
  rintro rfl
  exact h (List.mem_map.2 ⟨_, hmem, rfl⟩)

/-- Without repeated keys, erasing takes one entry away at most. -/
theorem length_erase_add {key : κ} {entries : List (κ × α)} (h : (entries.map Prod.fst).Nodup) :
    (erase key entries).length + (if (entries.lookup key).isSome then 1 else 0) =
      entries.length := by
  induction entries with
  | nil => rfl
  | cons entry entries ih =>
      obtain ⟨k, v⟩ := entry
      obtain ⟨hfirst, hrest⟩ := List.nodup_cons.1 h
      by_cases hk : k = key
      · subst hk
        rw [erase_cons_self, erase_of_not_mem hfirst]
        simp
      · have hne : (key == k) = false := by simpa using Ne.symm hk
        rw [erase_cons_of_ne hk, List.lookup_cons, hne, List.length_cons, List.length_cons,
          ← ih hrest, Nat.add_right_comm]

end StateDiagram.Assoc
