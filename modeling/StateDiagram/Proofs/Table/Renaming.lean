import Mathlib.Data.List.Find
import StateDiagram.Proofs.Table.WellFormed

/-!
# Renamed diagrams

Every identifier of a diagram is replaced by another one.  Building commutes with this as long as
different identifiers stay different and the events that share a label, or have none, are the same
ones afterwards.  What the states are called, and what of it all can be called, is free to change.
-/

namespace StateDiagram

/-! ## Renaming -/

namespace Ident

/-- What a renaming must keep: identifiers stay apart, and those used as events have one label, or
none, exactly if they did before. -/
structure Faithful (ρ : Ident → Ident) (states events : List Ident) : Prop where
  injOn : Set.InjOn ρ {ident | ident ∈ states ∨ ident ∈ events}
  label_eq_iff : ∀ event ∈ events, ∀ other ∈ events,
    ((ρ event).label = (ρ other).label ↔ event.label = other.label)
  label_eq_empty_iff : ∀ event ∈ events, ((ρ event).label = "" ↔ event.label = "")

/-- The label that takes the place of the label of an event. -/
def relabel (ρ : Ident → Ident) (events : List Ident) (label : String) : String :=
  ((events.find? fun event => event.label = label).map fun event => (ρ event).label).getD label

end Ident

/-- The entry acts according to what can be called under the new names. -/
def Entry.rename (ρ : Ident → Ident) (entry : Entry) : Entry :=
  .leadingTo (ρ entry.next) (entry.event.map ρ)

def Dictionary.events (d : Dictionary) : List Ident :=
  d.entries.filterMap fun (_, entry) => entry.event

/-- Every entry moves under the key that is its own now. -/
def Dictionary.rename (ρ : Ident → Ident) (d : Dictionary) : Dictionary :=
  ⟨d.entries.map fun (_, entry) => ((entry.rename ρ).key, entry.rename ρ)⟩

def Table.rename (ρ : Ident → Ident) (t : Table) : Table :=
  ⟨t.rows.map (Prod.map ρ (Dictionary.rename ρ))⟩

def Line.rename (ρ : Ident → Ident) (line : Line) : Line :=
  ⟨line.number, line.arrow, ρ line.left, ρ line.right, line.event.map ρ⟩

variable {ρ : Ident → Ident} {states events : List Ident}

@[simp] theorem Entry.event_rename (entry : Entry) :
    (entry.rename ρ).event = entry.event.map ρ := rfl

@[simp] theorem Table.states_rename (t : Table) : (t.rename ρ).states = t.states.map ρ := by
  simp [rename, states, Function.comp_def]

/-! ## Labels -/

namespace Ident.Faithful

theorem mono {states' events' : List Ident} (h : Faithful ρ states events)
    (hstates : states' ⊆ states) (hevents : events' ⊆ events) : Faithful ρ states' events' where
  injOn := h.injOn.mono fun _ hmem => hmem.imp (@hstates _) (@hevents _)
  label_eq_iff := fun event hevent other hother =>
    h.label_eq_iff event (hevents hevent) other (hevents hother)
  label_eq_empty_iff := fun event hevent => h.label_eq_empty_iff event (hevents hevent)

theorem injOn_states (h : Faithful ρ states events) : Set.InjOn ρ {ident | ident ∈ states} :=
  h.injOn.mono fun _ => Or.inl

theorem injOn_events (h : Faithful ρ states events) : Set.InjOn ρ {ident | ident ∈ events} :=
  h.injOn.mono fun _ => Or.inr

theorem relabel_label (h : Faithful ρ states events) {event : Ident} (hevent : event ∈ events) :
    relabel ρ events event.label = (ρ event).label := by
  cases hfind : events.find? fun other => other.label = event.label with
  | none =>
      have hne := List.find?_eq_none.1 hfind event hevent
      simp at hne
  | some other =>
      have hlabel : other.label = event.label := by simpa using List.find?_some hfind
      rw [relabel, hfind, Option.map_some, Option.getD_some]
      exact (h.label_eq_iff other (List.mem_of_find?_eq_some hfind) event hevent).2 hlabel

theorem relabel_defaultKey (h : Faithful ρ states events) :
    relabel ρ events defaultKey = defaultKey := by
  cases hfind : events.find? fun event => event.label = defaultKey with
  | none => rw [relabel, hfind, Option.map_none, Option.getD_none]
  | some event =>
      have hlabel : event.label = defaultKey := by simpa using List.find?_some hfind
      rw [relabel, hfind, Option.map_some, Option.getD_some]
      exact (h.label_eq_empty_iff event (List.mem_of_find?_eq_some hfind)).2 hlabel

/-- The keys of a diagram are the labels of its events and the default key. -/
theorem injOn_relabel (h : Faithful ρ states events) :
    Set.InjOn (relabel ρ events)
      {key | key = defaultKey ∨ ∃ event ∈ events, event.label = key} := by
  rintro key (rfl | ⟨event, hevent, rfl⟩) other (rfl | ⟨another, hanother, rfl⟩) heq
  · rfl
  · rw [h.relabel_defaultKey, h.relabel_label hanother] at heq
    exact ((h.label_eq_empty_iff another hanother).1 heq.symm).symm
  · rw [h.relabel_defaultKey, h.relabel_label hevent] at heq
    exact (h.label_eq_empty_iff event hevent).1 heq
  · rw [h.relabel_label hevent, h.relabel_label hanother] at heq
    exact (h.label_eq_iff event hevent another hanother).1 heq

end Ident.Faithful

/-! ## Entries and dictionaries -/

namespace Entry

variable {entry : Entry}

theorem label?_rename (h : Ident.Faithful ρ states events)
    (hentry : ∀ event ∈ entry.event, event ∈ events) :
    (entry.rename ρ).label? = entry.label?.map (Ident.relabel ρ events) := by
  rw [label?, label?, event_rename]
  cases hevent : entry.event with
  | none => rfl
  | some event => exact congrArg some (h.relabel_label (hentry event hevent)).symm

theorem key_rename (h : Ident.Faithful ρ states events)
    (hentry : ∀ event ∈ entry.event, event ∈ events) :
    (entry.rename ρ).key = Ident.relabel ρ events entry.key := by
  rw [key, key, label?_rename h hentry]
  cases entry.label? with
  | none => exact h.relabel_defaultKey.symm
  | some label => rfl

theorem key_eq_or (hentry : ∀ event ∈ entry.event, event ∈ events) :
    entry.key = defaultKey ∨ ∃ event ∈ events, event.label = entry.key := by
  rw [key, label?]
  cases hevent : entry.event with
  | none => exact .inl rfl
  | some event => exact .inr ⟨event, hentry event hevent, rfl⟩

end Entry

namespace Dictionary

variable {entries : List Entry}

theorem lastLabelled?_rename (h : Ident.Faithful ρ states events)
    (hentries : ∀ entry ∈ entries, ∀ event ∈ entry.event, event ∈ events) {event : Ident}
    (hevent : event ∈ events) :
    lastLabelled? (entries.map (Entry.rename ρ)) (Ident.relabel ρ events event.label) =
      (lastLabelled? entries event.label).map (Entry.rename ρ) := by
  rw [lastLabelled?, lastLabelled?, ← List.map_reverse, List.find?_map]
  congr 1
  apply List.find?_congr
  intro entry hentry
  have hin := hentries entry (List.mem_reverse.1 hentry)
  rw [Function.comp_apply, Entry.label?_rename h hin, decide_eq_decide, Entry.label?]
  cases hfrom : entry.event with
  | none => simp
  | some other =>
      simp only [Option.map_some, Option.some.injEq]
      exact h.injOn_relabel.eq_iff (.inr ⟨other, hin other hfrom, rfl⟩)
        (.inr ⟨event, hevent, rfl⟩)

theorem lastDefault?_rename (entries : List Entry) :
    lastDefault? (entries.map (Entry.rename ρ)) =
      (lastDefault? entries).map (Entry.rename ρ) := by
  rw [lastDefault?, lastDefault?, List.getLast?_map, Option.filter_map]
  congr 2
  funext entry
  simp

theorem label?_mem (hentries : ∀ entry ∈ entries, ∀ event ∈ entry.event, event ∈ events)
    {label : String} (hlabel : label ∈ entries.filterMap Entry.label?) :
    ∃ event ∈ events, event.label = label := by
  obtain ⟨entry, hentry, hsome⟩ := List.mem_filterMap.1 hlabel
  obtain ⟨event, hevent, rfl⟩ := Option.map_eq_some_iff.1 hsome
  exact ⟨event, hentries entry hentry event hevent, rfl⟩

theorem described_rename (h : Ident.Faithful ρ states events)
    (hentries : ∀ entry ∈ entries, ∀ event ∈ entry.event, event ∈ events) :
    described (entries.map (Entry.rename ρ)) = (described entries).rename ρ := by
  have hlabels : (entries.map (Entry.rename ρ)).filterMap Entry.label? =
      (entries.filterMap Entry.label?).map (Ident.relabel ρ events) := by
    rw [List.filterMap_map, List.map_filterMap]
    apply List.filterMap_congr
    intro entry hentry
    exact Entry.label?_rename h (hentries entry hentry)
  -- Labels are relabelled one to one, so they keep the order in which they appear first.
  have hdups := Assoc.eraseDups_map (h.injOn_relabel.mono fun label hlabel =>
    .inr (label?_mem hentries hlabel))
  rw [described, described, rename, hlabels, hdups, lastDefault?_rename, List.map_append]
  congr 2
  · apply Assoc.tabulate_map
    intro label hlabel
    obtain ⟨event, hevent, rfl⟩ := label?_mem hentries (List.mem_eraseDups.1 hlabel)
    rw [lastLabelled?_rename h hentries hevent]
    cases hlast : lastLabelled? entries event.label with
    | none => rfl
    | some entry =>
        obtain ⟨hentry, hkey⟩ := mem_of_lastLabelled? hlast
        have hlabel : entry.key = event.label := by rw [Entry.key, hkey, Option.getD_some]
        simp [Entry.key_rename h (hentries entry hentry), hlabel]
  · cases hlast : lastDefault? entries with
    | none => rfl
    | some entry =>
        obtain ⟨hentry, hevent⟩ := mem_of_lastDefault? hlast
        simp [Entry.key, Entry.label?, hevent]

variable {d : Dictionary}

theorem event_mem (hevents : d.events ⊆ events) {named : String × Entry}
    (hmem : named ∈ d.entries) : ∀ event ∈ named.2.event, event ∈ events :=
  fun _ hevent => hevents (List.mem_filterMap.2 ⟨named, hmem, hevent⟩)

theorem rename_eq (hd : d.WellFormed) (h : Ident.Faithful ρ states events)
    (hevents : d.events ⊆ events) :
    d.rename ρ = ⟨d.entries.map (Prod.map (Ident.relabel ρ events) (Entry.rename ρ))⟩ := by
  rw [rename, mk.injEq]
  apply List.map_congr_left
  rintro ⟨key, entry⟩ hmem
  simp only [Entry.key_rename h (event_mem hevents hmem), hd.key_eq hmem, Prod.map_apply]

theorem key_eq_or (hd : d.WellFormed) (hevents : d.events ⊆ events) {named : String × Entry}
    (hmem : named ∈ d.entries) :
    named.1 = defaultKey ∨ ∃ event ∈ events, event.label = named.1 := by
  rw [← hd.key_eq hmem]
  exact Entry.key_eq_or (event_mem hevents hmem)

theorem get?_relabel_rename (hd : d.WellFormed) (h : Ident.Faithful ρ states events)
    (hevents : d.events ⊆ events) {key : String}
    (hkey : key = defaultKey ∨ ∃ event ∈ events, event.label = key) :
    (d.rename ρ).get? (Ident.relabel ρ events key) = (d.get? key).map (Entry.rename ρ) := by
  rw [rename_eq hd h hevents, get?, get?]
  apply Assoc.lookup_map
  refine h.injOn_relabel.mono ?_
  rintro other (rfl | hother)
  · exact hkey
  · obtain ⟨named, hmem, rfl⟩ := List.mem_map.1 hother
    exact key_eq_or hd hevents hmem

theorem get?_label_rename (hd : d.WellFormed) (h : Ident.Faithful ρ states events)
    (hevents : d.events ⊆ events) {event : Ident} (hevent : event ∈ events) :
    (d.rename ρ).get? (ρ event).label = (d.get? event.label).map (Entry.rename ρ) := by
  rw [← h.relabel_label hevent]
  exact get?_relabel_rename hd h hevents (.inr ⟨event, hevent, rfl⟩)

theorem default?_rename (hd : d.WellFormed) (h : Ident.Faithful ρ states events)
    (hevents : d.events ⊆ events) :
    (d.rename ρ).default? = d.default?.map (Entry.rename ρ) := by
  have hdefault := get?_relabel_rename hd h hevents (.inl rfl)
  rwa [h.relabel_defaultKey] at hdefault

theorem named_rename (hd : d.WellFormed) (h : Ident.Faithful ρ states events)
    (hevents : d.events ⊆ events) :
    (d.rename ρ).named =
      d.named.map (Prod.map (Ident.relabel ρ events) (Entry.rename ρ)) := by
  rw [rename_eq hd h hevents, named, named, List.filter_map]
  congr 1
  apply List.filter_congr
  intro named hmem
  have hkey : Ident.relabel ρ events named.1 = defaultKey ↔ named.1 = defaultKey := by
    have heq := h.injOn_relabel.eq_iff (key_eq_or hd hevents hmem) (.inl rfl)
    rwa [h.relabel_defaultKey] at heq
  simp [hkey]

end Dictionary

/-! ## Lines -/

namespace Line

/-- What stands on the two sides of the arrow, whichever way it points. -/
def sides (line : Line) : List Ident := [line.left, line.right]

theorem ends_subset_sides (line : Line) : line.ends ⊆ line.sides := by
  obtain ⟨number, ⟨toRight, toLeft⟩, left, right, event⟩ := line
  cases toRight <;> cases toLeft <;> simp [ends, sides]

theorem ends_rename (line : Line) : (line.rename ρ).ends = line.ends.map ρ := by
  obtain ⟨number, ⟨toRight, toLeft⟩, left, right, event⟩ := line
  cases toRight <;> cases toLeft <;> simp [rename, ends]

theorem isAnonymous_rename {line : Line} (h : Ident.Faithful ρ states events)
    (hline : ∀ event ∈ line.event, event ∈ events) :
    (line.rename ρ).isAnonymous = line.isAnonymous := by
  rw [isAnonymous, isAnonymous, rename]
  cases hevent : line.event with
  | none => rfl
  | some event => simp [h.label_eq_empty_iff event (hline event hevent)]

theorem entryFrom?_rename {line : Line} {state : Ident}
    (h : Set.InjOn ρ {ident | ident = state ∨ ident ∈ line.sides}) :
    (line.rename ρ).entryFrom? (ρ state) = (line.entryFrom? state).map (Entry.rename ρ) := by
  have hleft : ρ state = ρ line.left ↔ state = line.left :=
    h.eq_iff (.inl rfl) (.inr (by simp [sides]))
  have hright : ρ state = ρ line.right ↔ state = line.right :=
    h.eq_iff (.inl rfl) (.inr (by simp [sides]))
  have htarget : (line.rename ρ).target? (ρ state) = (line.target? state).map ρ := by
    simp only [target?, rename, hleft, hright]
    split
    · rfl
    · split <;> rfl
  rw [entryFrom?, entryFrom?, htarget, Option.map_map, Option.map_map]
  rfl

theorem event_of_entryFrom? {line : Line} {state : Ident} {entry : Entry}
    (h : line.entryFrom? state = some entry) : entry.event = line.event := by
  obtain ⟨next, -, rfl⟩ := Option.map_eq_some_iff.1 h
  rfl

variable {lines : List Line}

theorem mem_sides {line : Line} (hline : line ∈ lines) {ident : Ident} (h : ident ∈ line.sides) :
    ident ∈ lines.flatMap sides :=
  List.mem_flatMap.2 ⟨line, hline, h⟩

theorem flatMap_ends_subset (lines : List Line) : lines.flatMap ends ⊆ lines.flatMap sides := by
  intro ident hident
  obtain ⟨line, hline, hend⟩ := List.mem_flatMap.1 hident
  exact mem_sides hline (line.ends_subset_sides hend)

theorem flatMap_ends_rename (lines : List Line) :
    (lines.map (rename ρ)).flatMap ends = (lines.flatMap ends).map ρ := by
  rw [List.flatMap_map, List.map_flatMap]
  simp only [ends_rename]

theorem filterMap_entryFrom?_rename (h : Set.InjOn ρ {ident | ident ∈ lines.flatMap sides})
    {state : Ident} (hstate : state ∈ lines.flatMap sides) :
    (lines.map (rename ρ)).filterMap (·.entryFrom? (ρ state)) =
      (lines.filterMap (·.entryFrom? state)).map (Entry.rename ρ) := by
  rw [List.filterMap_map, List.map_filterMap]
  apply List.filterMap_congr
  intro line hline
  apply entryFrom?_rename
  refine h.mono ?_
  rintro ident (rfl | hident)
  · exact hstate
  · exact mem_sides hline hident

theorem event_mem_of_mem_entries {state : Ident} {entry : Entry}
    (hentry : entry ∈ lines.filterMap (·.entryFrom? state)) :
    ∀ event ∈ entry.event, event ∈ lines.filterMap Line.event := by
  intro event hevent
  obtain ⟨line, hline, hfrom⟩ := List.mem_filterMap.1 hentry
  rw [event_of_entryFrom? hfrom] at hevent
  exact List.mem_filterMap.2 ⟨line, hline, hevent⟩

theorem find?_isAnonymous_rename (h : Ident.Faithful ρ states (lines.filterMap Line.event)) :
    (lines.map (rename ρ)).find? isAnonymous = (lines.find? isAnonymous).map (rename ρ) := by
  rw [List.find?_map]
  congr 1
  apply List.find?_congr
  intro line hline
  exact isAnonymous_rename h fun event hevent => List.mem_filterMap.2 ⟨line, hline, hevent⟩

end Line

/-! ## Tables -/

namespace Table

variable {lines : List Line}

theorem described_rename
    (h : Ident.Faithful ρ (lines.flatMap Line.sides) (lines.filterMap Line.event)) :
    described (lines.map (Line.rename ρ)) = (described lines).rename ρ := by
  have hends := Line.flatMap_ends_subset lines
  have hdups := Assoc.eraseDups_map (h.injOn_states.mono hends)
  simp only [described, rename, tabulate, Line.flatMap_ends_rename, hdups, List.map_map,
    Table.mk.injEq]
  apply List.map_congr_left
  intro state hstate
  have hentries := Line.filterMap_entryFrom?_rename h.injOn_states
    (hends (List.mem_eraseDups.1 hstate))
  simp only [Function.comp_apply, Prod.map_apply, hentries,
    Dictionary.described_rename h fun _ => Line.event_mem_of_mem_entries]

/-- The renamed lines fail where the lines do, or else give the renamed table. -/
theorem build_map_rename
    (h : Ident.Faithful ρ (lines.flatMap Line.sides) (lines.filterMap Line.event)) :
    build (lines.map (Line.rename ρ)) = (build lines).map (rename ρ) := by
  have hfind := Line.find?_isAnonymous_rename h
  cases hlines : lines.find? Line.isAnonymous with
  | some line =>
      rw [hlines, Option.map_some] at hfind
      rw [build_of_find?_isAnonymous hlines, build_of_find?_isAnonymous hfind]
      rfl
  | none =>
      have hnone : ∀ {ls : List Line}, ls.find? Line.isAnonymous = none →
          ∀ line ∈ ls, line.isAnonymous = false := by
        intro ls hls
        simpa using hls
      rw [hlines, Option.map_none] at hfind
      rw [build_eq_ok_described (hnone hlines), build_eq_ok_described (hnone hfind),
        described_rename h]
      rfl

end Table

end StateDiagram
