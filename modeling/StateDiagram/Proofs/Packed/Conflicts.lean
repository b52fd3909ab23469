import StateDiagram.Proofs.Index
import StateDiagram.Proofs.Packed.RoundTrip

/-!
# Names that stand more than once

A legend gives every state and event a name and lists the names that stand at several indices.
There is one conflict for each of them, with all its indices, in the order in which the names stand
first.  The conflicts can be found on one walk over the names that puts every index into the group
of its name, and no other list fits their description.
-/

namespace StateDiagram

/-! ## Where a name stands -/

variable {name : String} {names : List String} {kind : SymbolKind} {c other : NameConflict}
  {conflicts found : List NameConflict}

theorem indicesOf_concat (name : String) (names : List String) (last : String) :
    indicesOf name (names ++ [last]) =
      if last = name then indicesOf name names ++ [names.length] else indicesOf name names := by
  rw [indicesOf, List.zipIdx_append, List.filterMap_append]
  split <;> simp [indicesOf, *]

theorem indicesOf_of_not_mem (h : name ∉ names) : indicesOf name names = [] := by
  rw [List.eq_nil_iff_forall_not_mem]
  intro i hi
  exact h (List.mem_of_getElem? (mem_indicesOf.1 hi))

theorem pairwise_indicesOf (name : String) (names : List String) :
    (indicesOf name names).Pairwise (· < ·) := by
  induction names using List.reverseRecOn with
  | nil => exact .nil
  | append_singleton names last ih =>
      rw [indicesOf_concat]
      split
      · refine List.pairwise_append.2 ⟨ih, List.pairwise_singleton _ _, ?_⟩
        intro i hi j hj
        obtain ⟨hlt, -⟩ := List.getElem?_eq_some_iff.1 (mem_indicesOf.1 hi)
        rwa [List.mem_singleton.1 hj]
      · exact ih

def StandsTwice (names : List String) (name : String) : Prop :=
  ∃ i j : Nat, i < j ∧ names[i]? = some name ∧ names[j]? = some name

theorem one_lt_length_iff_of_pairwise {indices : List Nat} (h : indices.Pairwise (· < ·)) :
    1 < indices.length ↔ ∃ i j, i < j ∧ i ∈ indices ∧ j ∈ indices := by
  match indices, h with
  | [], _ => simp
  | [k], _ =>
      refine iff_of_false (by simp) ?_
      rintro ⟨i, j, hlt, hi, hj⟩
      rw [List.mem_singleton.1 hi, List.mem_singleton.1 hj] at hlt
      exact Nat.lt_irrefl k hlt
  | i :: j :: rest, h =>
      exact iff_of_true (by simp) ⟨i, j, (List.pairwise_cons.1 h).1 j (by simp), by simp, by simp⟩

theorem one_lt_length_indicesOf_iff :
    1 < (indicesOf name names).length ↔ StandsTwice names name := by
  rw [one_lt_length_iff_of_pairwise (pairwise_indicesOf name names)]
  simp only [mem_indicesOf, StandsTwice]

/-! ## Groups of indices -/

/-- An index goes to the group of its name, which is a new one at the end for a new name. -/
def addToGroups (groups : List (String × List Nat)) (named : String × Nat) :
    List (String × List Nat) :=
  Assoc.put named.1 ((groups.lookup named.1).getD [] ++ [named.2]) groups

def groupsOf (names : List String) : List (String × List Nat) :=
  names.zipIdx.foldl addToGroups []

def groupedConflicts (kind : SymbolKind) (names : List String) : List NameConflict :=
  ((groupsOf names).filter fun group => 1 < group.2.length).map fun group =>
    ⟨kind, group.1, group.2⟩

theorem groupsOf_eq (names : List String) :
    groupsOf names = names.eraseDups.map fun name => (name, indicesOf name names) := by
  induction names using List.reverseRecOn with
  | nil => rfl
  | append_singleton names last ih =>
      have hgroup : ((groupsOf names).lookup last).getD [] = indicesOf last names := by
        rw [ih, ← Assoc.tabulate_some, Assoc.lookup_tabulate]
        split
        · rfl
        · next hlast =>
            rw [List.mem_eraseDups] at hlast
            rw [indicesOf_of_not_mem hlast, Option.getD_none]
      have hstep : groupsOf (names ++ [last]) =
          Assoc.put last (indicesOf last names ++ [names.length]) (groupsOf names) := by
        rw [groupsOf, List.zipIdx_append, List.foldl_append, ← groupsOf, ← hgroup]
        simp [addToGroups]
      have hput := Assoc.put_tabulate (Assoc.nodup_eraseDups names)
        (fun name => some (indicesOf name names)) (fun _ _ => rfl) last
        (indicesOf last names ++ [names.length])
      rw [hstep, ih, ← Assoc.tabulate_some, hput, ← Assoc.eraseDups_concat, ← Assoc.tabulate_some]
      congr 1
      funext name
      rw [indicesOf_concat]
      by_cases hname : name = last
      · subst hname
        simp
      · simp [hname, Ne.symm hname]

theorem groupedConflicts_eq (kind : SymbolKind) (names : List String) :
    groupedConflicts kind names = nameConflicts kind names := by
  rw [groupedConflicts, groupsOf_eq, nameConflicts, List.filter_map, List.map_map,
    ← List.filterMap_eq_map, List.filterMap_filter]
  apply List.filterMap_congr
  intro name _
  simp

/-! ## The conflicts of a list of names -/

/-- These are the conflicts of the names: one for each name that stands twice, with all its indices
in ascending order.  Of two conflicts the one whose smallest index is below all indices of the other
comes first, so that none is listed twice. -/
structure ConflictsOf (kind : SymbolKind) (names : List String) (conflicts : List NameConflict) :
    Prop where
  kind_eq : ∀ c ∈ conflicts, c.kind = kind
  name_mem_iff : ∀ name, name ∈ conflicts.map NameConflict.name ↔ StandsTwice names name
  mem_indices_iff : ∀ c ∈ conflicts, ∀ i, i ∈ c.indices ↔ names[i]? = some c.name
  ascending : ∀ c ∈ conflicts, c.indices.Pairwise (· < ·)
  ordered : conflicts.Pairwise fun c later => ∃ i ∈ c.indices, ∀ j ∈ later.indices, i < j

theorem mem_nameConflicts_iff :
    c ∈ nameConflicts kind names ↔
      StandsTwice names c.name ∧ c = ⟨kind, c.name, indicesOf c.name names⟩ := by
  simp only [nameConflicts, List.mem_filterMap, List.mem_eraseDups, Option.ite_none_right_eq_some,
    one_lt_length_indicesOf_iff, Option.some.injEq]
  constructor
  · rintro ⟨name, -, htwice, rfl⟩
    exact ⟨htwice, rfl⟩
  · rintro ⟨htwice, hc⟩
    obtain ⟨i, -, -, hi, -⟩ := id htwice
    exact ⟨c.name, List.mem_of_getElem? hi, htwice, hc.symm⟩

/-- A name that is met first stands before all that are met later. -/
theorem pairwise_eraseDups (names : List String) :
    names.eraseDups.Pairwise fun name later =>
      ∃ i, i ∈ indicesOf name names ∧ ∀ j ∈ indicesOf later names, i < j := by
  refine (Assoc.pairwise_idxOf_eraseDups names).imp_of_mem ?_
  intro name later hname _ hlt
  refine ⟨names.idxOf name, mem_indicesOf.2 (List.getElem?_idxOf (List.mem_eraseDups.1 hname)), ?_⟩
  intro j hj
  obtain ⟨hj, rfl⟩ := List.getElem?_eq_some_iff.1 (mem_indicesOf.1 hj)
  refine Nat.lt_of_lt_of_le hlt (Nat.le_of_not_lt ?_)
  intro hbefore
  have hne := List.not_of_lt_findIdx hbefore
  simp at hne

theorem conflictsOf_nameConflicts (kind : SymbolKind) (names : List String) :
    ConflictsOf kind names (nameConflicts kind names) where
  kind_eq := by
    intro c hc
    rw [(mem_nameConflicts_iff.1 hc).2]
  name_mem_iff := by
    intro name
    rw [List.mem_map]
    constructor
    · rintro ⟨c, hc, rfl⟩
      exact (mem_nameConflicts_iff.1 hc).1
    · intro htwice
      exact ⟨⟨kind, name, indicesOf name names⟩, mem_nameConflicts_iff.2 ⟨htwice, rfl⟩, rfl⟩
  mem_indices_iff := by
    intro c hc i
    rw [(mem_nameConflicts_iff.1 hc).2, mem_indicesOf]
  ascending := by
    intro c hc
    rw [(mem_nameConflicts_iff.1 hc).2]
    exact pairwise_indicesOf _ _
  ordered := by
    rw [nameConflicts, List.pairwise_filterMap]
    refine (pairwise_eraseDups names).imp ?_
    intro name later hbefore c hc other hother
    simp only [Option.ite_none_right_eq_some, Option.some.injEq] at hc hother
    obtain ⟨-, rfl⟩ := hc
    obtain ⟨-, rfl⟩ := hother
    exact hbefore

namespace ConflictsOf

theorem eq_of_name_eq (h : ConflictsOf kind names conflicts) (hfound : ConflictsOf kind names found)
    (hc : c ∈ conflicts) (hother : other ∈ found) (hname : c.name = other.name) : c = other := by
  have hkind : c.kind = other.kind := (h.kind_eq c hc).trans (hfound.kind_eq other hother).symm
  have hindices : c.indices = other.indices := by
    refine Assoc.eq_of_pairwise_of_mem_iff (fun i j hij => Nat.lt_asymm hij) (h.ascending c hc)
      (hfound.ascending other hother) fun i => ?_
    rw [h.mem_indices_iff c hc, hfound.mem_indices_iff other hother, hname]
  calc
    c = ⟨c.kind, c.name, c.indices⟩ := rfl
    _ = ⟨other.kind, other.name, other.indices⟩ := by rw [hkind, hname, hindices]

theorem mem_of_mem (h : ConflictsOf kind names conflicts) (hfound : ConflictsOf kind names found)
    (hc : c ∈ conflicts) : c ∈ found := by
  have htwice := (h.name_mem_iff c.name).1 (List.mem_map_of_mem hc)
  obtain ⟨other, hother, heq⟩ := List.mem_map.1 ((hfound.name_mem_iff c.name).2 htwice)
  rwa [h.eq_of_name_eq hfound hc hother heq.symm]

/-- There is one list of conflicts for a list of names. -/
theorem unique (h : ConflictsOf kind names conflicts) (hfound : ConflictsOf kind names found) :
    conflicts = found := by
  refine Assoc.eq_of_pairwise_of_mem_iff ?_ h.ordered hfound.ordered
    fun c => ⟨h.mem_of_mem hfound, hfound.mem_of_mem h⟩
  rintro c other ⟨i, hi, hbefore⟩ ⟨j, hj, hafter⟩
  exact Nat.lt_asymm (hbefore j hj) (hafter i hi)

theorem disjoint (h : ConflictsOf kind names conflicts) :
    conflicts.Pairwise fun c other => c.name ≠ other.name ∧ c.indices.Disjoint other.indices := by
  refine h.ordered.imp_of_mem ?_
  rintro c other hc hother ⟨i, hi, hbefore⟩
  have hname : c.name ≠ other.name := by
    intro hname
    obtain rfl := h.eq_of_name_eq h hc hother hname
    exact Nat.lt_irrefl i (hbefore i hi)
  refine ⟨hname, ?_⟩
  intro j hj hsame
  have hc := (h.mem_indices_iff c hc j).1 hj
  have hother := (h.mem_indices_iff other hother j).1 hsame
  exact hname (Option.some.inj (hc.symm.trans hother))

theorem eq_nil_iff (h : ConflictsOf kind names conflicts) : conflicts = [] ↔ names.Nodup := by
  have hnil : conflicts = [] ↔ ∀ name, name ∉ conflicts.map NameConflict.name := by
    rw [← List.eq_nil_iff_forall_not_mem, List.map_eq_nil_iff]
  rw [List.nodup_iff_getElem?_ne_getElem?, hnil]
  simp only [h.name_mem_iff, StandsTwice, not_exists, not_and]
  constructor
  · intro hnone i j hlt hj heq
    have hname := List.getElem?_eq_getElem hj
    exact hnone _ i j hlt (heq.trans hname) hname
  · intro hne name i j hlt hi hj
    obtain ⟨hlength, -⟩ := List.getElem?_eq_some_iff.1 hj
    exact hne i j hlt hlength (hi.trans hj.symm)

end ConflictsOf

theorem conflictsOf_iff :
    ConflictsOf kind names conflicts ↔ conflicts = nameConflicts kind names := by
  constructor
  · intro h
    exact h.unique (conflictsOf_nameConflicts kind names)
  · rintro rfl
    exact conflictsOf_nameConflicts kind names

/-! ## The names and conflicts of a legend -/

theorem PackOptions.getElem?_names (options : PackOptions) (tokens : NameTokens)
    (kind : SymbolKind) (idents : List Ident) (i : Nat) :
    (options.names tokens kind idents)[i]? =
      idents[i]?.map (options.nameOf (tokens kind i)) := by
  simp [names, List.getElem?_map, List.getElem?_zipIdx, Option.map_map, Function.comp_def]

namespace Legend

variable {legend : Legend}

theorem conflicts_eq_nil_iff
    (h : legend.conflicts =
      nameConflicts .state legend.stateNames ++ nameConflicts .event legend.eventNames) :
    legend.conflicts = [] ↔ legend.stateNames.Nodup ∧ legend.eventNames.Nodup := by
  rw [h, List.append_eq_nil_iff, (conflictsOf_nameConflicts _ _).eq_nil_iff,
    (conflictsOf_nameConflicts _ _).eq_nil_iff]

theorem disjoint_conflicts
    (h : legend.conflicts =
      nameConflicts .state legend.stateNames ++ nameConflicts .event legend.eventNames) :
    legend.conflicts.Pairwise fun c other => c.kind = other.kind →
      c.name ≠ other.name ∧ c.indices.Disjoint other.indices := by
  have hstates := conflictsOf_nameConflicts .state legend.stateNames
  have hevents := conflictsOf_nameConflicts .event legend.eventNames
  rw [h]
  refine List.pairwise_append.2 ⟨?_, ?_, ?_⟩
  · refine hstates.disjoint.imp ?_
    exact fun hdisjoint _ => hdisjoint
  · refine hevents.disjoint.imp ?_
    exact fun hdisjoint _ => hdisjoint
  · intro c hc other hother hkind
    rw [hstates.kind_eq c hc, hevents.kind_eq other hother] at hkind
    contradiction

end Legend

namespace Table

/-- Every table whose states fit into the codes is packed.  Its legend has a name for each state
and event, which is the label where there is one, and exactly the conflicts of these names. -/
theorem legend_of_pack {lines : List Line} {t : Table} (hbuild : build lines = .ok t)
    (options : PackOptions) (tokens : NameTokens) :
    (options.layout = .fixedWidth → t.size < UInt32.size →
      ∃ p, t.pack options tokens = .ok p) ∧
    ∀ p, t.pack options tokens = .ok p →
      p.legend.stateNames.length = t.index.states.length ∧
      (∀ i state, t.index.state? i = some state →
        p.legend.stateName? i = some
          (if state.label = "" then options.cutToken (tokens .state i) else state.label)) ∧
      p.legend.eventNames.length = t.index.events.length ∧
      (∀ j event, t.index.event? j = some event →
        event.label ≠ "" ∧ p.legend.eventName? j = some event.label) ∧
      (∃ states events, p.legend.conflicts = states ++ events ∧
        (∀ found, ConflictsOf .state p.legend.stateNames found ↔ found = states) ∧
        (∀ found, ConflictsOf .event p.legend.eventNames found ↔ found = events) ∧
        states = groupedConflicts .state p.legend.stateNames ∧
        events = groupedConflicts .event p.legend.eventNames) ∧
      (p.legend.conflicts = [] ↔ p.legend.stateNames.Nodup ∧ p.legend.eventNames.Nodup) ∧
      p.legend.conflicts.Pairwise fun c other => c.kind = other.kind →
        c.name ≠ other.name ∧ c.indices.Disjoint other.indices := by
  refine ⟨fun hlayout hsize => ⟨_, pack_eq_ok hsize hlayout tokens⟩, ?_⟩
  intro p hpack
  obtain ⟨-, -, rfl⟩ := PackedTable.pack_eq_ok_iff.1 hpack
  have hwell := wellFormed_of_build hbuild
  have hlength : ∀ kind idents, (options.names tokens kind idents).length = idents.length := by
    simp [PackOptions.names]
  refine ⟨hlength _ _, ?_, hlength _ _, ?_, ⟨_, _, rfl, fun _ => conflictsOf_iff,
    fun _ => conflictsOf_iff, (groupedConflicts_eq _ _).symm, (groupedConflicts_eq _ _).symm⟩,
    Legend.conflicts_eq_nil_iff rfl, Legend.disjoint_conflicts rfl⟩
  · intro i state hstate
    have hname := options.getElem?_names tokens .state t.index.states i
    rwa [show t.index.states[i]? = some state from hstate, Option.map_some] at hname
  · intro j event hevent
    have hlabel : event.label ≠ "" :=
      hwell.label_ne_of_mem_events (List.mem_of_getElem? hevent)
    have hname := options.getElem?_names tokens .event t.index.events j
    rw [show t.index.events[j]? = some event from hevent, Option.map_some,
      PackOptions.nameOf, if_neg hlabel] at hname
    exact ⟨hlabel, hname⟩

/-- Two callables of one name, a callable without a name whose token happens to be that name, and
two events of one label. -/
theorem legend_of_pack_of_idle :
    let lines : List Line :=
      [⟨1, ⟨true, false⟩, .behavior ⟨0, "idle"⟩, .behavior ⟨1, ""⟩, some (.text "go")⟩,
        ⟨2, ⟨true, true⟩, .behavior ⟨1, ""⟩, .behavior ⟨2, "idle"⟩, some (.behavior ⟨3, "go"⟩)⟩,
        ⟨3, ⟨true, false⟩, .text "end", .text "end", none⟩]
    let options : PackOptions := ⟨.fixedWidth, 4⟩
    ∃ t p, build lines = .ok t ∧ t.pack options (fun _ _ => "idleness") = .ok p ∧
      p.legend.conflicts = [⟨.state, "idle", [0, 1, 2]⟩, ⟨.event, "go", [0, 1]⟩] ∧
      p.legend.stateName? 1 = some "idle" ∧
      (∀ found, ConflictsOf .state p.legend.stateNames found ↔
        found = [⟨.state, "idle", [0, 1, 2]⟩]) ∧
      ¬ (p.legend.stateNames.Nodup ∧ p.legend.eventNames.Nodup) := by
  intro lines options
  obtain ⟨t, hbuild⟩ : ∃ t, build lines = .ok t := ⟨_, rfl⟩
  obtain ⟨hpacked, hlegend⟩ := legend_of_pack hbuild options fun _ _ => "idleness"
  obtain rfl : _ = t := Except.ok.inj hbuild
  obtain ⟨p, hpack⟩ := hpacked rfl (by decide)
  obtain ⟨-, hstate, -, -, ⟨states, events, happend, hstates, -, hgrouped, hgroupedEvents⟩,
    hnil, -⟩ := hlegend p hpack
  obtain ⟨-, -, rfl⟩ := PackedTable.pack_eq_ok_iff.1 hpack
  obtain rfl : states = [⟨.state, "idle", [0, 1, 2]⟩] := hgrouped.trans (by decide +kernel)
  obtain rfl : events = [⟨.event, "go", [0, 1]⟩] := hgroupedEvents.trans (by decide +kernel)
  refine ⟨_, _, hbuild, hpack, happend, ?_, hstates, ?_⟩
  · exact (hstate 1 (.behavior ⟨1, ""⟩) (by decide +kernel)).trans (by decide +kernel)
  · rw [← hnil, happend]
    exact List.cons_ne_nil _ _

end Table

end StateDiagram
