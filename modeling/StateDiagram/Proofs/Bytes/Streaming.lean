import StateDiagram.Proofs.Bytes.Lawful

/-!
# Bytes that delimit themselves

A reader looks at no byte beyond those that it takes, so more bytes at the end of its input are left
over.  With the law of what is written and read back, this makes every written form end where it
ends: a part of it is refused, and it begins no other.
-/

namespace StateDiagram.ByteForm

/-! ## Readers without lookahead -/

/-- What is appended to the input of the reader is appended to what it leaves over. -/
structure Streaming {α : Type} (read : Bytes → Option (α × Bytes)) : Prop where
  append : ∀ {bytes : Bytes} {a : α} {rest : Bytes}, read bytes = some (a, rest) →
    ∀ more, read (bytes ++ more) = some (a, rest ++ more)

namespace Streaming

variable {α β : Type}

/-- A value that does not depend on the bytes is there or not. -/
theorem ofOption (found : Option α) :
    Streaming fun bytes => found.bind fun a => some (a, bytes) where
  append := by
    intro bytes a rest h more
    obtain ⟨b, rfl, heq⟩ := Option.bind_eq_some_iff.1 h
    obtain ⟨rfl, rfl⟩ := Prod.mk.inj (Option.some.inj heq)
    rfl

theorem ofSome (a : α) : Streaming fun bytes => some (a, bytes) := ofOption (some a)

theorem ofNone : Streaming fun _ => (none : Option (α × Bytes)) := ofOption none

theorem bind {read : Bytes → Option (α × Bytes)} {next : α × Bytes → Option (β × Bytes)}
    (h : Streaming read) (hnext : ∀ a, Streaming fun bytes => next (a, bytes)) :
    Streaming fun bytes => (read bytes).bind next where
  append := by
    intro bytes b rest hread more
    obtain ⟨⟨a, middle⟩, ha, hb⟩ := Option.bind_eq_some_iff.1 hread
    simp only [h.append ha more, Option.bind_some]
    exact (hnext a).append hb more

theorem map {read : Bytes → Option (α × Bytes)} (h : Streaming read) (f : α → β) :
    Streaming fun bytes => (read bytes).map fun (a, rest) => (f a, rest) where
  append := by
    intro bytes b rest hread more
    obtain ⟨⟨a, middle⟩, ha, heq⟩ := Option.map_eq_some_iff.1 hread
    obtain ⟨rfl, rfl⟩ := Prod.mk.inj heq
    simp only [h.append ha more, Option.map_some]

end Streaming

theorem decodeWord?_streaming (width : Nat) : Streaming (decodeWord? width) := by
  induction width with
  | zero => exact .ofSome 0
  | succ width ih =>
      refine ⟨fun {bytes n rest} h more => ?_⟩
      cases bytes with
      | nil => contradiction
      | cons byte bytes =>
          obtain ⟨⟨high, middle⟩, hhigh, heq⟩ := Option.bind_eq_some_iff.1 h
          obtain ⟨rfl, rfl⟩ := Prod.mk.inj (Option.some.inj heq)
          simp only [List.cons_append, decodeWord?, ih.append hhigh more, Option.bind_eq_bind,
            Option.bind_some]

class Streams (α : Type) [ByteForm α] : Prop where
  decode?_streaming : Streaming (decode? : Bytes → Option (α × Bytes))

export Streams (decode?_streaming)

/-! ## Words, strings and lists -/

instance : Streams Nat where
  decode?_streaming := decodeWord?_streaming 8

instance : Streams UInt32 where
  decode?_streaming := (decodeWord?_streaming 4).map UInt32.ofNat

instance : Streams String where
  decode?_streaming := by
    refine (decodeWord?_streaming 8).bind fun length => ⟨fun {bytes text rest} h more => ?_⟩
    simp only [Option.ite_none_right_eq_some] at h
    obtain ⟨hlength, htext⟩ := h
    have hlonger : length ≤ (bytes ++ more).length := by
      rw [List.length_append]
      omega
    simp only [hlonger, if_true, List.take_append_of_le_length hlength,
      List.drop_append_of_le_length hlength]
    obtain ⟨found, hfound, heq⟩ := Option.map_eq_some_iff.1 htext
    obtain ⟨rfl, rfl⟩ := Prod.mk.inj heq
    rw [hfound, Option.map_some]

instance : Streams Timestamp where
  decode?_streaming := (Streams.decode?_streaming (α := String)).bind fun text =>
    .ofOption (Timestamp.ofText? text)

theorem decodeMany?_streaming {α : Type} [ByteForm α] [Streams α] (count : Nat) :
    Streaming (decodeMany? (α := α) count) := by
  induction count with
  | zero => exact .ofSome []
  | succ count ih => exact decode?_streaming.bind fun a => ih.bind fun as => .ofSome (a :: as)

instance {α : Type} [ByteForm α] [Streams α] : Streams (List α) where
  decode?_streaming := (decodeWord?_streaming 8).bind decodeMany?_streaming

/-! ## Packed tables -/

theorem decodeTag?_streaming : Streaming decodeTag? := decodeWord?_streaming 4

instance : Streams Layout where
  decode?_streaming := decodeTag?_streaming.bind fun tag =>
    match tag with
    | 0 => .ofSome Layout.fixedWidth
    | 1 => .ofSome Layout.strided
    | _ + 2 => .ofNone

instance : Streams SymbolKind where
  decode?_streaming := decodeTag?_streaming.bind fun tag =>
    match tag with
    | 0 => .ofSome SymbolKind.state
    | 1 => .ofSome SymbolKind.event
    | _ + 2 => .ofNone

instance : Streams NameConflict where
  decode?_streaming := decode?_streaming.bind fun kind => decode?_streaming.bind fun name =>
    decode?_streaming.bind fun indices => .ofSome (NameConflict.mk kind name indices)

instance : Streams Legend where
  decode?_streaming := decode?_streaming.bind fun layout =>
    decode?_streaming.bind fun stateNames => decode?_streaming.bind fun eventNames =>
    decode?_streaming.bind fun rowPositions => decode?_streaming.bind fun conflicts =>
    .ofSome (Legend.mk layout stateNames eventNames rowPositions conflicts)

instance : Streams PackedTable where
  decode?_streaming := decode?_streaming.bind fun buffer => decode?_streaming.bind fun legend =>
    .ofSome (PackedTable.mk buffer legend)

/-! ## Histories and checkpoints -/

instance : Streams Step where
  decode?_streaming := decode?_streaming.bind fun source => decode?_streaming.bind fun target =>
    decode?_streaming.bind fun trigger => decode?_streaming.bind fun time =>
    .ofSome (Step.mk source target trigger time)

instance : Streams History where
  decode?_streaming := decode?_streaming.bind fun steps => .ofSome (History.mk steps)

instance : Streams Checkpoint where
  decode?_streaming := decode?_streaming.bind fun version => decode?_streaming.bind fun id =>
    decode?_streaming.bind fun time => decode?_streaming.bind fun start =>
    decode?_streaming.bind fun current => decode?_streaming.bind fun currentLabel =>
    decode?_streaming.bind fun history =>
    .ofSome (Checkpoint.mk version id time start current currentLabel history)

/-! ## Where a written form ends -/

section SelfDelimiting

variable {α : Type} [ByteForm α] [Lawful α]

/-- The value is read from its bytes whatever follows them, but from no smaller part of them, and
they begin the bytes of no other value. -/
structure SelfDelimiting (a : α) : Prop where
  read_back : ∀ rest, ofBytes? (encode a ++ rest) = some a
  part_refused : ∀ part : Bytes, part <+: encode a → part ≠ encode a →
    ofBytes? (α := α) part = none
  eq_of_isPrefix : ∀ b, Fits b → encode a <+: encode b → a = b

theorem decode?_of_isPrefix [Streams α] {a : α} (h : Fits a) {part : Bytes}
    (hpart : part <+: encode a) (hne : part ≠ encode a) : decode? (α := α) part = none := by
  rw [Option.eq_none_iff_forall_ne_some]
  rintro ⟨b, rest⟩ hread
  obtain ⟨more, hmore⟩ := hpart
  -- The reader takes the same bytes of the whole, so the missing ones would be left over there.
  have hwhole := (Streams.decode?_streaming (α := α)).append hread more
  have hencode := decode?_encode h []
  rw [List.append_nil, ← hmore, hwhole, Option.some.injEq, Prod.mk.injEq,
    List.append_eq_nil_iff] at hencode
  obtain ⟨-, -, rfl⟩ := hencode
  exact hne (by rw [← hmore, List.append_nil])

theorem selfDelimiting [Streams α] {a : α} (h : Fits a) : SelfDelimiting a where
  read_back rest := by rw [ofBytes?, decode?_encode h, Option.map_some]
  part_refused part hpart hne := by rw [ofBytes?, decode?_of_isPrefix h hpart hne, Option.map_none]
  eq_of_isPrefix b hb hprefix := by
    obtain ⟨rest, hrest⟩ := hprefix
    have hreada := decode?_encode h rest
    have hreadb := decode?_encode hb []
    rw [List.append_nil, ← hrest, hreada] at hreadb
    exact congrArg Prod.fst (Option.some.inj hreadb)

end SelfDelimiting

/-- Packed tables and checkpoints are read back from their bytes whatever follows, and not from
less, as long as their numbers and lengths fit in their words. -/
theorem records_selfDelimiting :
    (∀ p : PackedTable, Fits p → SelfDelimiting p) ∧
      ∀ c : Checkpoint, Fits c → SelfDelimiting c :=
  ⟨fun _ => selfDelimiting, fun _ => selfDelimiting⟩

/-- A table that no packing gives: its layout has no format, and its row order repeats a row that it
does not have. -/
theorem records_selfDelimiting_of_accents :
    SelfDelimiting (PackedTable.mk [1, 0]
      ⟨.strided, ["é", "é"], [], [7, 7], [⟨.state, "é", [0, 1]⟩]⟩) ∧
    SelfDelimiting (Checkpoint.mk 9 "id" (.ofSecondOfDay (.firstOfYear 2024) 0 0) 3 4 "état"
      ⟨[⟨3, 4, "→", .ofSecondOfDay (.firstOfYear 2024) 1 0⟩]⟩) := by
  refine ⟨records_selfDelimiting.1 _ ?_, records_selfDelimiting.2 _ ?_⟩
  · simp [Fits]
    decide
  · simp [Fits]
    decide

end StateDiagram.ByteForm
