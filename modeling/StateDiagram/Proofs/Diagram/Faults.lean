import StateDiagram.Proofs.Diagram.Statement
import StateDiagram.Proofs.Traversal

/-!
# Faults of a diagram

Linting names every line in error, in the order of the lines.  Compiling refuses the same sources,
but it reads all lines before it builds anything from them.  An event without a label comes to
light only where every line could be read, so the first line in error is not always the one that
compiling stops at.
-/

namespace StateDiagram

namespace DiagramError

def isAnonymousEvent : DiagramError → Bool
  | .anonymousEvent _ => true
  | _ => false

/-- Both errors have a line, and that of the first comes before that of the second. -/
def Precedes (e later : DiagramError) : Prop :=
  ∃ m n, e.line? = some m ∧ later.line? = some n ∧ m < n

/-- The error that comes to light first where lines are read before events are looked at. -/
def firstFound? (errors : List DiagramError) : Option DiagramError :=
  (errors.find? fun e => !e.isAnonymousEvent).or errors.head?

theorem firstFound?_eq_none_iff {errors : List DiagramError} :
    firstFound? errors = none ↔ errors = [] := by
  cases errors <;> simp [firstFound?]

theorem mem_of_firstFound? {errors : List DiagramError} {e : DiagramError}
    (h : firstFound? errors = some e) : e ∈ errors := by
  rcases Option.or_eq_some_iff.1 h with hread | ⟨-, hhead⟩
  · exact List.mem_of_find?_eq_some hread
  · exact List.mem_of_head? hhead

theorem firstFound?_cons (first : DiagramError) (rest : List DiagramError) :
    firstFound? (first :: rest) =
      some (((first :: rest).find? fun e => !e.isAnonymousEvent).getD first) := by
  rw [firstFound?, List.head?_cons]
  cases (first :: rest).find? fun e => !e.isAnonymousEvent <;> rfl

theorem firstFound?_cons_eq_some_self_iff {first : DiagramError} {rest : List DiagramError} :
    firstFound? (first :: rest) = some first ↔
      (first.isAnonymousEvent = true → ∀ e ∈ rest, e.isAnonymousEvent = true) := by
  rw [firstFound?_cons, Option.some.injEq]
  cases hfirst : first.isAnonymousEvent with
  | false => simp [hfirst]
  | true =>
      rw [List.find?_cons_of_neg (by simp [hfirst])]
      cases hfind : rest.find? fun e => !e.isAnonymousEvent with
      | none => simpa using hfind
      | some e =>
          have he : e.isAnonymousEvent = false := by simpa using List.find?_some hfind
          have hne : e ≠ first := by
            rintro rfl
            rw [he] at hfirst
            contradiction
          have hrest : ¬ ∀ e ∈ rest, e.isAnonymousEvent = true := fun hall => by
            have htrue := hall e (List.mem_of_find?_eq_some hfind)
            rw [he] at htrue
            contradiction
          simp [hne, hrest]

end DiagramError

/-! ## One line -/

namespace Line

/-- Why a line is refused: its tokens cannot be read, or its event has no label. -/
def fault? (number : Nat) (tokens : List Token) : Option DiagramError :=
  match ofTokens number tokens with
  | .ok line => line.anonymousEvent?
  | .error e => some e

variable {number : Nat} {tokens : List Token} {line : Line} {e : DiagramError}

theorem number_of_ofTokens (h : ofTokens number tokens = .ok line) : line.number = number := by
  unfold ofTokens at h
  split at h
  · split at h
    · contradiction
    · split at h
      · cases h
        rfl
      · split at h
        · cases h
          rfl
        · contradiction
      all_goals contradiction
  · contradiction

theorem line?_of_ofTokens (h : ofTokens number tokens = .error e) :
    e.line? = some number ∧ e.isAnonymousEvent = false := by
  unfold ofTokens at h
  split at h
  · split at h
    · cases h
      exact ⟨rfl, rfl⟩
    · split at h
      · contradiction
      · split at h
        · contradiction
        · cases h
          exact ⟨rfl, rfl⟩
      all_goals
        cases h
        exact ⟨rfl, rfl⟩
  · cases h
    exact ⟨rfl, rfl⟩

theorem anonymousEvent?_eq (line : Line) :
    line.anonymousEvent? =
      if line.isAnonymous then some (.anonymousEvent line.number) else none := by
  obtain ⟨number, arrow, left, right, event⟩ := line
  cases event <;> simp [anonymousEvent?, isAnonymous]

theorem head?_filterMap_anonymousEvent? (lines : List Line) :
    (lines.filterMap anonymousEvent?).head? =
      (lines.find? isAnonymous).map fun line => .anonymousEvent line.number := by
  induction lines with
  | nil => rfl
  | cons line lines ih =>
      have hline := anonymousEvent?_eq line
      cases hanonymous : line.isAnonymous with
      | false =>
          rw [hanonymous] at hline
          rw [List.filterMap_cons_none hline, List.find?_cons_of_neg (by simp [hanonymous]), ih]
      | true =>
          rw [hanonymous] at hline
          rw [List.filterMap_cons_some hline, List.find?_cons_of_pos hanonymous]
          rfl

theorem fault?_of_ofTokens (h : ofTokens number tokens = .ok line) :
    fault? number tokens = if line.isAnonymous then some (.anonymousEvent number) else none := by
  rw [fault?, h]
  exact (anonymousEvent?_eq line).trans (by rw [number_of_ofTokens h])

theorem fault?_of_ofTokens_eq_error (h : ofTokens number tokens = .error e) :
    fault? number tokens = some e := by
  rw [fault?, h]

theorem line?_of_fault? (h : fault? number tokens = some e) : e.line? = some number := by
  cases hread : ofTokens number tokens with
  | error found =>
      rw [fault?_of_ofTokens_eq_error hread] at h
      cases h
      exact (line?_of_ofTokens hread).1
  | ok line =>
      rw [fault?_of_ofTokens hread, Option.ite_none_right_eq_some, Option.some.injEq] at h
      obtain ⟨-, rfl⟩ := h
      rfl

theorem fault?_any_eq (number : Nat) (tokens : List Token) :
    (fault? number tokens).any (fun e => !e.isAnonymousEvent) = !(ofTokens number tokens).isOk := by
  cases hread : ofTokens number tokens with
  | error e =>
      rw [fault?_of_ofTokens_eq_error hread, Option.any_some, (line?_of_ofTokens hread).2]
      rfl
  | ok line =>
      rw [fault?_of_ofTokens hread]
      split <;> rfl

end Line

/-! ## Linting -/

namespace Source

variable {source : Source} {number : Nat} {tokens : List Token} {e other : DiagramError}

/-- The line of that number is not blank, and these are its tokens. -/
def HasLine (source : Source) (number : Nat) (tokens : List Token) : Prop :=
  tokens ≠ [] ∧ 1 ≤ number ∧ (source.splitOn .newline)[number - 1]? = some tokens

/-- The line of that number is in error. -/
inductive Faulty (source : Source) (number : Nat) : DiagramError → Prop where
  | unreadable {tokens : List Token} {e : DiagramError} (hline : source.HasLine number tokens)
      (hread : Line.ofTokens number tokens = .error e) : Faulty source number e
  | anonymous {tokens : List Token} {line : Line} {event : Ident}
      (hline : source.HasLine number tokens) (hread : Line.ofTokens number tokens = .ok line)
      (hevent : line.event = some event) (hlabel : event.label = "") :
      Faulty source number (.anonymousEvent number)

theorem mem_segments_iff : (tokens, number) ∈ source.segments ↔ source.HasLine number tokens := by
  simp [segments, HasLine, List.mem_filter, List.mem_zipIdx_iff_le_and_getElem?_sub, and_comm]

theorem lint_eq (source : Source) :
    source.lint = source.segments.filterMap fun segment => Line.fault? segment.2 segment.1 := by
  rw [lint, parseEach, List.filterMap_map]
  rfl

theorem faulty_iff : source.Faulty number e ↔
    ∃ tokens, source.HasLine number tokens ∧ Line.fault? number tokens = some e := by
  constructor
  · rintro (⟨hline, hread⟩ | ⟨hline, hread, hevent, hlabel⟩)
    · exact ⟨_, hline, Line.fault?_of_ofTokens_eq_error hread⟩
    · refine ⟨_, hline, ?_⟩
      rw [Line.fault?_of_ofTokens hread, if_pos (by simp [Line.isAnonymous, hevent, hlabel])]
  · rintro ⟨tokens, hline, hfault⟩
    cases hread : Line.ofTokens number tokens with
    | error found =>
        rw [Line.fault?_of_ofTokens_eq_error hread] at hfault
        cases hfault
        exact .unreadable hline hread
    | ok line =>
        rw [Line.fault?_of_ofTokens hread, Option.ite_none_right_eq_some,
          Option.some.injEq] at hfault
        obtain ⟨hanonymous, rfl⟩ := hfault
        obtain ⟨event, hevent, hlabel⟩ := (Option.any_eq_true _ _).1 hanonymous
        exact .anonymous hline hread hevent (by simpa using hlabel)

theorem mem_lint_iff : e ∈ source.lint ↔ ∃ number, source.Faulty number e := by
  simp only [lint_eq, List.mem_filterMap, Prod.exists, mem_segments_iff, faulty_iff]
  exact exists_comm

theorem Faulty.line?_eq (h : source.Faulty number e) : e.line? = some number := by
  obtain ⟨tokens, -, hfault⟩ := faulty_iff.1 h
  exact Line.line?_of_fault? hfault

theorem Faulty.unique (h : source.Faulty number e) (hother : source.Faulty number other) :
    other = e := by
  obtain ⟨tokens, ⟨-, -, hline⟩, hfault⟩ := faulty_iff.1 h
  obtain ⟨again, ⟨-, -, hagain⟩, hrefused⟩ := faulty_iff.1 hother
  rw [hline, Option.some.injEq] at hagain
  subst hagain
  rw [hfault, Option.some.injEq] at hrefused
  exact hrefused.symm

theorem pairwise_segments (source : Source) :
    source.segments.Pairwise fun segment later => segment.2 < later.2 := by
  apply List.Pairwise.filter
  have hnumbers : (((source.splitOn .newline).zipIdx 1).map Prod.snd).Pairwise (· < ·) := by
    rw [List.zipIdx_map_snd]
    exact List.pairwise_lt_range'
  exact List.pairwise_map.1 hnumbers

theorem pairwise_lint (source : Source) : source.lint.Pairwise DiagramError.Precedes := by
  rw [lint_eq, List.pairwise_filterMap]
  refine (pairwise_segments source).imp ?_
  intro segment later hlt e he other hother
  exact ⟨_, _, Line.line?_of_fault? he, Line.line?_of_fault? hother, hlt⟩

/-! ## Compiling -/

theorem lint_of_parse {lines : List Line} (h : source.parseEach = lines.map .ok) :
    source.lint = lines.filterMap Line.anonymousEvent? := by
  rw [lint, h, List.filterMap_map]
  rfl

theorem compile_of_find? {first : DiagramError}
    (h : source.lint.find? (fun e => !e.isAnonymousEvent) = some first) :
    Table.compile source = .error first := by
  rw [lint_eq, List.find?_filterMap] at h
  simp only [Line.fault?_any_eq] at h
  obtain ⟨segment, hsegment, hfault⟩ := Option.bind_eq_some_iff.1 h
  obtain ⟨found, hread, hparse⟩ := mapM_of_find?_not_isOk hsegment
  rw [Line.fault?_of_ofTokens_eq_error hread, Option.some.injEq] at hfault
  subst hfault
  rw [Table.compile, parse, hparse]
  rfl

theorem exists_parse_of_find? (h : source.lint.find? (fun e => !e.isAnonymousEvent) = none) :
    ∃ lines, source.parse = .ok lines ∧ source.parseEach = lines.map .ok := by
  rw [lint_eq, List.find?_filterMap] at h
  simp only [Line.fault?_any_eq] at h
  apply mapM_of_find?_not_isOk_eq_none
  cases hfind : source.segments.find? fun segment =>
      !(Line.ofTokens segment.2 segment.1).isOk with
  | none => rfl
  | some segment =>
      obtain ⟨found, hread, -⟩ := mapM_of_find?_not_isOk hfind
      rw [hfind, Option.bind_some, Line.fault?_of_ofTokens_eq_error hread] at h
      contradiction

theorem compile_of_lint_eq_nil (h : source.lint = []) : ∃ t, Table.compile source = .ok t := by
  obtain ⟨lines, hparse, heach⟩ := @exists_parse_of_find? source (by rw [h]; rfl)
  rw [lint_of_parse heach, List.filterMap_eq_nil_iff] at h
  refine ⟨.described lines, (Table.compile_eq_build hparse).trans (Table.build_eq_ok_described ?_)⟩
  intro line hline
  have hnone := h line hline
  rw [Line.anonymousEvent?_eq] at hnone
  simpa using hnone

/-- Compiling reports one of the errors that linting finds. -/
theorem compile_of_firstFound? (h : DiagramError.firstFound? source.lint = some e) :
    Table.compile source = .error e := by
  rcases Option.or_eq_some_iff.1 h with hread | ⟨hread, hhead⟩
  · exact compile_of_find? hread
  · -- All lines could be read, so what is left to find are anonymous events, first to last.
    obtain ⟨lines, hparse, heach⟩ := exists_parse_of_find? hread
    rw [lint_of_parse heach, Line.head?_filterMap_anonymousEvent?, Option.map_eq_some_iff] at hhead
    obtain ⟨line, hline, rfl⟩ := hhead
    exact (Table.compile_eq_build hparse).trans (Table.build_of_find?_isAnonymous hline)

theorem compile_eq_error_iff :
    Table.compile source = .error e ↔ DiagramError.firstFound? source.lint = some e := by
  refine ⟨fun h => ?_, compile_of_firstFound?⟩
  cases hfound : DiagramError.firstFound? source.lint with
  | none =>
      obtain ⟨t, ht⟩ := compile_of_lint_eq_nil (DiagramError.firstFound?_eq_none_iff.1 hfound)
      rw [h] at ht
      contradiction
  | some found =>
      rw [compile_of_firstFound? hfound, Except.error.injEq] at h
      rw [h]

/-- Linting finds nothing exactly in the sources that compile.  Otherwise it names every line in
error once, in the order of the lines, and what compiling reports is among its errors. -/
theorem lint_agrees (source : Source) :
    (source.lint = [] ↔ ∃ t, Table.compile source = .ok t) ∧
    (∀ e, e ∈ source.lint ↔ ∃ number, source.Faulty number e) ∧
    (∀ number e, source.Faulty number e →
      e.line? = some number ∧ ∀ other, source.Faulty number other → other = e) ∧
    source.lint.Pairwise DiagramError.Precedes ∧
    ∀ e, Table.compile source = .error e → e ∈ source.lint := by
  refine ⟨⟨compile_of_lint_eq_nil, ?_⟩, fun _ => mem_lint_iff,
    fun _ _ h => ⟨h.line?_eq, fun _ => h.unique⟩, pairwise_lint source, ?_⟩
  · rintro ⟨t, ht⟩
    rw [← DiagramError.firstFound?_eq_none_iff, Option.eq_none_iff_forall_ne_some]
    intro e hfound
    rw [compile_of_firstFound? hfound] at ht
    contradiction
  · intro e he
    cases hfound : DiagramError.firstFound? source.lint with
    | none =>
        obtain ⟨t, ht⟩ := compile_of_lint_eq_nil (DiagramError.firstFound?_eq_none_iff.1 hfound)
        rw [he] at ht
        contradiction
    | some found =>
        rw [compile_of_firstFound? hfound, Except.error.injEq] at he
        rw [← he]
        exact DiagramError.mem_of_firstFound? hfound

/-- Compiling reports the first line that cannot be read, or else the first line with an anonymous
event.  That is the first line in error unless a line with an anonymous event comes before one that
cannot be read. -/
theorem compile_stops_at_first_iff {first : DiagramError} {rest : List DiagramError}
    (h : source.lint = first :: rest) :
    Table.compile source =
      .error ((source.lint.find? fun e => !e.isAnonymousEvent).getD first) ∧
    (Table.compile source = .error first ↔
      (first.isAnonymousEvent = true → ∀ e ∈ rest, e.isAnonymousEvent = true)) ∧
    ∃ n, first.line? = some n ∧ ∀ number e, source.Faulty number e → n ≤ number := by
  have hcompile : Table.compile source =
      .error (((first :: rest).find? fun e => !e.isAnonymousEvent).getD first) :=
    compile_of_firstFound? (by rw [h, DiagramError.firstFound?_cons])
  rw [h]
  refine ⟨hcompile, ?_, ?_⟩
  · rw [← DiagramError.firstFound?_cons_eq_some_self_iff, DiagramError.firstFound?_cons, hcompile,
      Except.error.injEq, Option.some.injEq]
  · obtain ⟨n, hfirst⟩ := mem_lint_iff.1 (h ▸ List.mem_cons_self)
    refine ⟨n, hfirst.line?_eq, ?_⟩
    intro number e he
    have hmem : e ∈ first :: rest := h ▸ mem_lint_iff.2 ⟨number, he⟩
    have hline := he.line?_eq
    rcases List.mem_cons.1 hmem with rfl | hmem
    · rw [hfirst.line?_eq, Option.some.injEq] at hline
      exact Nat.le_of_eq hline
    · have hsorted := pairwise_lint source
      rw [h] at hsorted
      obtain ⟨m, k, hm, hk, hlt⟩ := (List.pairwise_cons.1 hsorted).1 e hmem
      rw [hfirst.line?_eq, Option.some.injEq] at hm
      rw [hline, Option.some.injEq] at hk
      omega

/-- Two anonymous events with a blank line between them. -/
theorem compile_stops_at_first_iff_of_unnamed :
    let line : List Token :=
      [.hole (.text "A"), .word "->", .hole (.text "B"), .word "@", .hole (.behavior ⟨0, ""⟩)]
    let source : Source := line ++ [.newline, .newline] ++ line
    source.lint = [.anonymousEvent 1, .anonymousEvent 3] ∧
      Table.compile source = .error (.anonymousEvent 1) := by
  intro line source
  have hlint : source.lint = [.anonymousEvent 1, .anonymousEvent 3] := rfl
  obtain ⟨-, hiff, -⟩ := compile_stops_at_first_iff hlint
  exact ⟨hlint, hiff.2 fun _ => by decide⟩

/-- The anonymous event of the first line comes to light only after the arrow of the second. -/
theorem compile_passes_over_unnamed :
    let source : Source :=
      [.hole (.text "A"), .word "->", .hole (.text "B"), .word "@", .hole (.behavior ⟨0, ""⟩),
        .newline, .hole (.text "A"), .word "=>", .hole (.text "B")]
    source.lint = [.anonymousEvent 1, .invalidArrow 2 "=>"] ∧
      Table.compile source = .error (.invalidArrow 2 "=>") :=
  ⟨rfl, rfl⟩

end Source

end StateDiagram
