import StateDiagram.Bytes.Records
import StateDiagram.Proofs.Calendar.TimestampText

/-!
# Byte forms read back

What is written as bytes is read back, and what follows it is left over, as long as its numbers and
lengths fit in their words.  The law of a type is made of those of its parts, field by field.
-/

namespace StateDiagram.ByteForm

class Lawful (α : Type) [ByteForm α] where
  Fits : α → Prop
  decode?_encode : ∀ {a : α}, Fits a → ∀ rest, decode? (encode a ++ rest) = some (a, rest)

export Lawful (Fits decode?_encode)

theorem ofBytes?_encode {α : Type} [ByteForm α] [Lawful α] {a : α} (h : Fits a) :
    ofBytes? (encode a) = some a := by
  have hread := decode?_encode h []
  rw [List.append_nil] at hread
  rw [ofBytes?, hread, Option.map_some]

/-! ## Words -/

theorem decodeWord?_encodeWord_of_lt {width n : Nat} (h : n < wordSize width) (rest : Bytes) :
    decodeWord? width (encodeWord width n ++ rest) = some (n, rest) := by
  rw [decodeWord?_encodeWord, Nat.mod_eq_of_lt h]

theorem decodeWord?_encodeWord_eight {n : Nat} (h : n < UInt64.size) (rest : Bytes) :
    decodeWord? 8 (encodeWord 8 n ++ rest) = some (n, rest) :=
  decodeWord?_encodeWord_of_lt h rest

instance : Lawful Nat where
  Fits n := n < UInt64.size
  decode?_encode h rest := decodeWord?_encodeWord_eight h rest

instance : Lawful UInt32 where
  Fits _ := True
  decode?_encode {n} _ rest := by
    have hword : n.toNat < wordSize 4 := n.toNat_lt
    simp only [encode, decode?]
    rw [decodeWord?_encodeWord_of_lt hword, Option.map_some, UInt32.ofNat_toNat]

/-! ## Strings -/

theorem fromUTF8?_toUTF8 (text : String) : String.fromUTF8? text.toUTF8 = some text := by
  rw [String.fromUTF8?, String.toUTF8_eq_toByteArray, dif_pos text.isValidUTF8]
  rfl

theorem utf8ByteSize_ofList_le (text : List Char) :
    (String.ofList text).utf8ByteSize ≤ 4 * text.length := by
  induction text with
  | nil => exact Nat.le_refl 0
  | cons c text ih =>
      have hc := c.utf8Size_le_four
      rw [← List.singleton_append, String.ofList_append, String.utf8ByteSize_append,
        ← String.singleton_eq_ofList, String.utf8ByteSize_singleton]
      simp only [List.singleton_append, List.length_cons]
      omega

instance : Lawful String where
  Fits text := text.utf8ByteSize < UInt64.size
  decode?_encode {text} h rest := by
    have hlength : text.toUTF8.data.toList.length = text.toUTF8.size := rfl
    have hword : text.toUTF8.size < UInt64.size := h
    simp only [encode, decode?, List.append_assoc]
    rw [decodeWord?_encodeWord_eight hword]
    simp only [Option.bind_eq_bind, Option.bind_some]
    rw [if_pos (by simp), ← hlength, List.take_left, List.drop_left,
      Array.toArray_toList, fromUTF8?_toUTF8, Option.map_some]

/-- Years have six digits at most. -/
instance : Lawful Timestamp where
  Fits t := t.date.year.natAbs < 10 ^ 6
  decode?_encode {t} h rest := by
    have hsize : Fits t.toText := by
      have hbytes := utf8ByteSize_ofList_le t.toChars
      have hlength := t.length_toChars_le h
      have hword : 4 * 40 < UInt64.size := by decide
      exact Nat.lt_of_le_of_lt (Nat.le_trans hbytes (Nat.mul_le_mul_left 4 hlength)) hword
    change (decode? (encode t.toText ++ rest)).bind _ = _
    rw [decode?_encode hsize, Option.bind_some]
    simp only [Timestamp.ofText?_toText, Option.bind_eq_bind, Option.bind_some]

/-! ## Lists -/

theorem decodeMany?_flatMap {α : Type} [ByteForm α] [Lawful α] {as : List α}
    (h : ∀ a ∈ as, Fits a) (rest : Bytes) :
    decodeMany? as.length (as.flatMap encode ++ rest) = some (as, rest) := by
  induction as with
  | nil => rfl
  | cons a as ih =>
      have hrest := ih fun b hb => h b (List.mem_cons_of_mem a hb)
      rw [List.flatMap_cons, List.append_assoc, List.length_cons, decodeMany?,
        decode?_encode (h a List.mem_cons_self)]
      simp only [Option.bind_eq_bind, Option.bind_some, hrest]

instance {α : Type} [ByteForm α] [Lawful α] : Lawful (List α) where
  Fits as := as.length < UInt64.size ∧ ∀ a ∈ as, Fits a
  decode?_encode h rest := by
    simp only [encode, decode?, List.append_assoc]
    rw [decodeWord?_encodeWord_eight h.1]
    simp only [Option.bind_eq_bind, Option.bind_some]
    exact decodeMany?_flatMap h.2 rest

/-! ## Packed tables -/

instance : Lawful Layout where
  Fits _ := True
  decode?_encode {layout} _ rest := by
    cases layout <;> rfl

instance : Lawful SymbolKind where
  Fits _ := True
  decode?_encode {kind} _ rest := by
    cases kind <;> rfl

instance : Lawful NameConflict where
  Fits conflict := Fits conflict.kind ∧ Fits conflict.name ∧ Fits conflict.indices
  decode?_encode {conflict} h rest := by
    obtain ⟨hkind, hname, hindices⟩ := h
    change (decode? (encode conflict.kind ++ encode conflict.name ++ encode conflict.indices ++
      rest)).bind _ = _
    simp only [List.append_assoc]
    rw [decode?_encode hkind]
    simp only [Option.bind_eq_bind, Option.bind_some, decode?_encode hname,
      decode?_encode hindices]

instance : Lawful Legend where
  Fits legend := Fits legend.layout ∧ Fits legend.stateNames ∧ Fits legend.eventNames ∧
    Fits legend.rowPositions ∧ Fits legend.conflicts
  decode?_encode {legend} h rest := by
    obtain ⟨hlayout, hstates, hevents, hpositions, hconflicts⟩ := h
    change (decode? (encode legend.layout ++ encode legend.stateNames ++
      encode legend.eventNames ++ encode legend.rowPositions ++ encode legend.conflicts ++
      rest)).bind _ = _
    simp only [List.append_assoc]
    rw [decode?_encode hlayout]
    simp only [Option.bind_eq_bind, Option.bind_some, decode?_encode hstates,
      decode?_encode hevents, decode?_encode hpositions, decode?_encode hconflicts]

instance : Lawful PackedTable where
  Fits p := Fits p.buffer ∧ Fits p.legend
  decode?_encode {p} h rest := by
    obtain ⟨hbuffer, hlegend⟩ := h
    change (decode? (encode p.buffer ++ encode p.legend ++ rest)).bind _ = _
    rw [List.append_assoc, decode?_encode hbuffer]
    simp only [Option.bind_eq_bind, Option.bind_some, decode?_encode hlegend]

/-! ## Histories and checkpoints -/

instance : Lawful Step where
  Fits step := Fits step.source ∧ Fits step.target ∧ Fits step.trigger ∧ Fits step.time
  decode?_encode {step} h rest := by
    obtain ⟨hsource, htarget, htrigger, htime⟩ := h
    change (decode? (encode step.source ++ encode step.target ++ encode step.trigger ++
      encode step.time ++ rest)).bind _ = _
    simp only [List.append_assoc]
    rw [decode?_encode hsource]
    simp only [Option.bind_eq_bind, Option.bind_some, decode?_encode htarget,
      decode?_encode htrigger, decode?_encode htime]

instance : Lawful History where
  Fits h := Fits h.steps
  decode?_encode {h} hsteps rest := by
    change (decode? (encode h.steps ++ rest)).bind _ = _
    rw [decode?_encode hsteps]
    rfl

instance : Lawful Checkpoint where
  Fits c := Fits c.version ∧ Fits c.id ∧ Fits c.time ∧ Fits c.start ∧ Fits c.current ∧
    Fits c.currentLabel ∧ Fits c.history
  decode?_encode {c} h rest := by
    obtain ⟨hversion, hid, htime, hstart, hcurrent, hlabel, hhistory⟩ := h
    change (decode? (encode c.version ++ encode c.id ++ encode c.time ++ encode c.start ++
      encode c.current ++ encode c.currentLabel ++ encode c.history ++ rest)).bind _ = _
    simp only [List.append_assoc]
    rw [decode?_encode hversion]
    simp only [Option.bind_eq_bind, Option.bind_some, decode?_encode hid, decode?_encode htime,
      decode?_encode hstart, decode?_encode hcurrent, decode?_encode hlabel,
      decode?_encode hhistory]

end StateDiagram.ByteForm
