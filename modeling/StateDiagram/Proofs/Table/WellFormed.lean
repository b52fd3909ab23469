import StateDiagram.Proofs.Table.Described

/-!
# Well-formed tables

What holds of every table that a diagram builds: keys do not repeat, an entry stands under the
label of its event or under the default key, and whatever an entry leads to is a state of the
table.
-/

namespace StateDiagram

def Entry.key (entry : Entry) : String := entry.label?.getD defaultKey

namespace Dictionary

structure WellFormed (d : Dictionary) : Prop where
  keys_nodup : (d.entries.map Prod.fst).Nodup
  key_eq : ∀ {key entry}, (key, entry) ∈ d.entries → entry.key = key
  label_ne : ∀ {key entry}, (key, entry) ∈ d.entries → entry.label? ≠ some defaultKey
  action_eq : ∀ {key entry}, (key, entry) ∈ d.entries →
    entry = .leadingTo entry.next entry.event

namespace WellFormed

variable {d : Dictionary}

theorem get?_eq_some_iff (h : d.WellFormed) {key : String} {entry : Entry} :
    d.get? key = some entry ↔ (key, entry) ∈ d.entries :=
  Assoc.lookup_eq_some_iff_mem h.keys_nodup

theorem key_eq_label (h : d.WellFormed) {key : String} {entry : Entry}
    (hmem : (key, entry) ∈ d.entries) {event : Ident} (hevent : entry.event = some event) :
    key = event.label ∧ event.label ≠ defaultKey := by
  have hlabel : entry.label? = some event.label := by rw [Entry.label?, hevent, Option.map_some]
  have hkey := h.key_eq hmem
  have hne := h.label_ne hmem
  rw [Entry.key, hlabel, Option.getD_some] at hkey
  rw [hlabel, ne_eq, Option.some.injEq] at hne
  exact ⟨hkey.symm, hne⟩

theorem key_eq_defaultKey_iff (h : d.WellFormed) {key : String} {entry : Entry}
    (hmem : (key, entry) ∈ d.entries) : key = defaultKey ↔ entry.event = none := by
  cases hevent : entry.event with
  | none =>
      have hkey := h.key_eq hmem
      rw [Entry.key, Entry.label?, hevent] at hkey
      exact iff_of_true hkey.symm rfl
  | some event =>
      obtain ⟨rfl, hne⟩ := h.key_eq_label hmem hevent
      exact iff_of_false hne (Option.some_ne_none event)

theorem get?_label_of_mem (h : d.WellFormed) {key : String} {entry : Entry}
    (hmem : (key, entry) ∈ d.entries) {event : Ident} (hevent : entry.event = some event) :
    d.get? event.label = some entry := by
  rw [← (h.key_eq_label hmem hevent).1]
  exact h.get?_eq_some_iff.2 hmem

theorem mem_named_iff (h : d.WellFormed) {key : String} {entry : Entry} :
    (key, entry) ∈ d.named ↔
      (key, entry) ∈ d.entries ∧ ∃ event, entry.event = some event := by
  simp only [named, List.mem_filter, decide_eq_true_eq]
  exact and_congr_right fun hmem =>
    (h.key_eq_defaultKey_iff hmem).not.trans Option.ne_none_iff_exists'

theorem action_eq_compose_iff (h : d.WellFormed) {key : String} {entry : Entry}
    (hmem : (key, entry) ∈ d.entries) :
    entry.action = .compose ↔ entry.next.isCallable = true ∨
      ∃ event, entry.event = some event ∧ event.isCallable = true := by
  rw [← Option.any_eq_true, ← Bool.or_eq_true, congrArg Entry.action (h.action_eq hmem),
    Entry.leadingTo]
  split <;> simp [*]

end WellFormed

/-! ## Described dictionaries -/

variable {entries : List Entry} {key : String} {entry : Entry}

theorem mem_of_lastLabelled? (h : lastLabelled? entries key = some entry) :
    entry ∈ entries ∧ entry.label? = some key := by
  have hmem := List.mem_of_find?_eq_some h
  have hlabel := List.find?_some h
  exact ⟨List.mem_reverse.1 hmem, by simpa using hlabel⟩

theorem mem_of_lastDefault? (h : lastDefault? entries = some entry) :
    entry ∈ entries ∧ entry.event = none := by
  obtain ⟨hlast, hevent⟩ := Option.filter_eq_some_iff.1 h
  exact ⟨List.mem_of_getLast? hlast, by simpa using hevent⟩

theorem mem_entries_described : (key, entry) ∈ (described entries).entries ↔
    lastLabelled? entries key = some entry ∨
      key = defaultKey ∧ lastDefault? entries = some entry := by
  have hlabel : lastLabelled? entries key = some entry →
      key ∈ (entries.filterMap Entry.label?).eraseDups := by
    intro h
    rw [List.mem_eraseDups, ← isSome_lastLabelled?, h]
    rfl
  simp only [described, List.mem_append, Assoc.mem_tabulate, Option.mem_toList,
    Option.map_eq_some_iff, Prod.mk.injEq]
  constructor
  · rintro (⟨-, h⟩ | ⟨e, he, rfl, rfl⟩)
    · exact .inl h
    · exact .inr ⟨rfl, he⟩
  · rintro (h | ⟨rfl, he⟩)
    · exact .inl ⟨hlabel h, h⟩
    · exact .inr ⟨entry, he, rfl, rfl⟩

theorem mem_of_mem_described (h : (key, entry) ∈ (described entries).entries) :
    entry ∈ entries := by
  rcases mem_entries_described.1 h with hlast | ⟨-, hlast⟩
  · exact (mem_of_lastLabelled? hlast).1
  · exact (mem_of_lastDefault? hlast).1

theorem key_of_mem_described (h : (key, entry) ∈ (described entries).entries) :
    entry.key = key := by
  rcases mem_entries_described.1 h with hlast | ⟨rfl, hlast⟩
  · rw [Entry.key, (mem_of_lastLabelled? hlast).2, Option.getD_some]
  · rw [Entry.key, Entry.label?, (mem_of_lastDefault? hlast).2, Option.map_none, Option.getD_none]

theorem wellFormed_described (hlabel : ∀ e ∈ entries, e.label? ≠ some defaultKey)
    (haction : ∀ e ∈ entries, e = .leadingTo e.next e.event) : (described entries).WellFormed := by
  refine ⟨?_, key_of_mem_described, fun h => hlabel _ (mem_of_mem_described h),
    fun h => haction _ (mem_of_mem_described h)⟩
  have hkeys : (Assoc.tabulate (entries.filterMap Entry.label?).eraseDups
      (lastLabelled? entries)).map Prod.fst = (entries.filterMap Entry.label?).eraseDups :=
    Assoc.keys_tabulate fun key h => isSome_lastLabelled?.2 (List.mem_eraseDups.1 h)
  have hdefault := defaultKey_not_mem_labels hlabel
  rw [hkeys] at hdefault
  rw [described, List.map_append, hkeys, List.nodup_append]
  refine ⟨Assoc.nodup_eraseDups _, ?_, ?_⟩
  · cases lastDefault? entries <;> simp
  · intro key hkey other hother
    cases hlast : lastDefault? entries with
    | none => simp [hlast] at hother
    | some e =>
        have heq : other = defaultKey := by simpa [hlast] using hother
        rw [heq]
        rintro rfl
        exact hdefault hkey

theorem get?_described (hlabel : ∀ e ∈ entries, e.label? ≠ some defaultKey)
    (haction : ∀ e ∈ entries, e = .leadingTo e.next e.event) (hkey : key ≠ defaultKey) :
    (described entries).get? key = lastLabelled? entries key := by
  apply Option.ext
  intro entry
  rw [(wellFormed_described hlabel haction).get?_eq_some_iff, mem_entries_described]
  simp [hkey]

end Dictionary

theorem Line.eq_leadingTo_of_mem_entries (lines : List Line) (state : Ident) :
    ∀ entry ∈ lines.filterMap (·.entryFrom? state), entry = .leadingTo entry.next entry.event := by
  intro entry hentry
  obtain ⟨line, -, hfrom⟩ := List.mem_filterMap.1 hentry
  obtain ⟨next, -, rfl⟩ := Option.map_eq_some_iff.1 hfrom
  rfl

namespace Table

/-- What every built table keeps. -/
structure WellFormed (t : Table) : Prop where
  states_nodup : t.states.Nodup
  next_mem : ∀ row ∈ t.rows, ∀ {key entry}, (key, entry) ∈ row.2.entries → entry.next ∈ t.states
  dictionary : ∀ row ∈ t.rows, row.2.WellFormed

theorem wellFormed_described {lines : List Line} (h : ∀ line ∈ lines, line.isAnonymous = false) :
    (described lines).WellFormed where
  states_nodup := by
    rw [described, states_tabulate]
    exact Assoc.nodup_eraseDups _
  next_mem := by
    intro row hrow key entry hentry
    obtain ⟨state, -, rfl⟩ := List.mem_map.1 hrow
    obtain ⟨line, hline, hfrom⟩ := List.mem_filterMap.1 (Dictionary.mem_of_mem_described hentry)
    obtain ⟨next, htarget, rfl⟩ := Option.map_eq_some_iff.1 hfrom
    rw [described, states_tabulate, List.mem_eraseDups]
    exact List.mem_flatMap.2 ⟨line, hline, (Line.mem_ends_of_target? htarget).2⟩
  dictionary := by
    intro row hrow
    obtain ⟨state, -, rfl⟩ := List.mem_map.1 hrow
    exact Dictionary.wellFormed_described (Line.label?_ne_of_mem_entries h state)
      (Line.eq_leadingTo_of_mem_entries lines state)

theorem wellFormed_of_build {lines : List Line} {t : Table} (h : build lines = .ok t) :
    t.WellFormed := by
  obtain ⟨hlines, rfl⟩ := build_eq_ok_iff.1 h
  exact wellFormed_described hlines

end Table

end StateDiagram
