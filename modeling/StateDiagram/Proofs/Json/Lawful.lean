import StateDiagram.Json.Records
import StateDiagram.Proofs.Calendar.TimestampText
import StateDiagram.Proofs.Json.ReadBack

/-!
# JSON forms read back

A value is read back from its JSON text as long as its positions and counts have 64 bits.  Fields
are found by their names, so a record is read back if its names are different.
-/

namespace StateDiagram

/-! ## Items and members -/

theorem mapM_map_eq_some {α β γ : Type} {f : β → Option γ} {g : α → β} {k : α → γ} {as : List α}
    (h : ∀ a ∈ as, f (g a) = some (k a)) : (as.map g).mapM f = some (as.map k) := by
  induction as with
  | nil => rfl
  | cons a as ih =>
      have hrest := ih fun b hb => h b (List.mem_cons_of_mem a hb)
      simp only [List.map_cons, List.mapM_cons, h a List.mem_cons_self, hrest, Option.bind_eq_bind,
        Option.bind_some, Option.pure_def]

namespace Json

theorem arePlainItems_of_forall {items : List Json} (h : ∀ item ∈ items, item.IsPlain) :
    ArePlainItems items := by
  induction items with
  | nil => trivial
  | cons item items ih =>
      exact ⟨h item List.mem_cons_self, ih fun j hj => h j (List.mem_cons_of_mem item hj)⟩

theorem isPlain_ofRecord {members : List (String × Json)}
    (h : ∀ member ∈ members, member.2.IsPlain) : (ofRecord members).IsPlain := by
  change ArePlainMembers (members.map fun member => (some member.1, member.2))
  induction members with
  | nil => trivial
  | cons member members ih =>
      exact ⟨rfl, h member List.mem_cons_self, ih fun m hm => h m (List.mem_cons_of_mem member hm)⟩

theorem filter_eq_singleton {members : List (String × Json)}
    (hnodup : (members.map Prod.fst).Nodup) {name : String} {value : Json}
    (hmem : (name, value) ∈ members) :
    members.filter (fun member => member.1 = name) = [(name, value)] := by
  induction members with
  | nil => contradiction
  | cons member members ih =>
      obtain ⟨hfresh, hnodup⟩ := List.nodup_cons.1 hnodup
      rcases List.mem_cons.1 hmem with rfl | hmem
      · have hrest : members.filter (fun member => member.1 = name) = [] := by
          refine List.filter_eq_nil_iff.2 fun other hother hname => hfresh ?_
          exact List.mem_map.2 ⟨other, hother, of_decide_eq_true hname⟩
        rw [List.filter_cons_of_pos (by simp), hrest]
      · have hne : member.1 ≠ name := fun hname =>
          hfresh (hname ▸ List.mem_map_of_mem hmem)
        rw [List.filter_cons_of_neg (by simpa using hne), ih hnodup hmem]

theorem member?_of_mem {members : List (String × Json)} (hnodup : (members.map Prod.fst).Nodup)
    {name : String} {value : Json} (hmem : (name, value) ∈ members) :
    member? (members.map fun member => (some member.1, member.2)) name = some (some value) := by
  simp [member?, List.filter_map, Function.comp_def, filter_eq_singleton hnodup hmem]

/-- A record has all fields of its names, in this order. -/
theorem record?_ofRecord {members : List (String × Json)}
    (hnodup : (members.map Prod.fst).Nodup) :
    (ofRecord members).record? (members.map Prod.fst) = some (members.map Prod.snd) := by
  have hfields : (ofRecord members).fields? (members.map Prod.fst) =
      some (members.map fun member => some member.2) := by
    rw [ofRecord, fields?, if_pos (by simp)]
    exact mapM_map_eq_some fun member hmem => member?_of_mem hnodup hmem
  rw [record?, hfields]
  exact mapM_map_eq_some fun member _ => rfl

end Json

namespace JsonForm

class Lawful (α : Type) [JsonForm α] where
  Fits : α → Prop
  isPlain_toJson : ∀ a : α, (toJson a).IsPlain
  ofJson?_toJson : ∀ {a : α}, Fits a → ofJson? (toJson a) = some a

export Lawful (Fits isPlain_toJson ofJson?_toJson)

theorem ofText?_toText {α : Type} [JsonForm α] [Lawful α] {a : α} (h : Fits a) :
    ofText? (toText a) = some a := by
  rw [ofText?, toText, Json.parse?_render (isPlain_toJson a)]
  exact ofJson?_toJson h

/-! ## Scalars and lists -/

theorem natural?_natCast {bound n : Nat} (h : n < bound) :
    natural? bound (.integer n) = some n := by
  rw [natural?, if_pos (by omega), Int.toNat_natCast]

instance : Lawful Nat where
  Fits n := n < UInt64.size
  isPlain_toJson _ := trivial
  ofJson?_toJson h := natural?_natCast h

instance : Lawful UInt32 where
  Fits _ := True
  isPlain_toJson _ := trivial
  ofJson?_toJson {n} _ := by
    change (natural? UInt32.size (.integer n.toNat)).map UInt32.ofNat = _
    rw [natural?_natCast n.toNat_lt, Option.map_some, UInt32.ofNat_toNat]

instance : Lawful String where
  Fits _ := True
  isPlain_toJson _ := rfl
  ofJson?_toJson _ := rfl

instance : Lawful Timestamp where
  Fits _ := True
  isPlain_toJson _ := rfl
  ofJson?_toJson {t} _ := t.ofText?_toText

instance {α : Type} [JsonForm α] [Lawful α] : Lawful (List α) where
  Fits as := ∀ a ∈ as, Fits a
  isPlain_toJson as := Json.arePlainItems_of_forall fun j hj => by
    obtain ⟨a, -, rfl⟩ := List.mem_map.1 hj
    exact isPlain_toJson a
  ofJson?_toJson {as} h := by
    have hread := @mapM_map_eq_some _ _ _ ofJson? toJson id as fun a ha => ofJson?_toJson (h a ha)
    rw [List.map_id] at hread
    exact hread

/-! ## Histories and checkpoints -/

instance : Lawful Step where
  Fits step := Fits step.source ∧ Fits step.target
  isPlain_toJson step := Json.isPlain_ofRecord (by simp [isPlain_toJson])
  ofJson?_toJson {step} h := by
    obtain ⟨hsource, htarget⟩ := h
    have htrigger : Fits step.trigger := trivial
    have htime : Fits step.time := trivial
    -- Stated with the names written out, since the reader matches on the list of its values.
    have hread : (toJson step).record? ["from", "to", "trigger", "timestamp"] =
        some [toJson step.source, toJson step.target, toJson step.trigger, toJson step.time] :=
      @Json.record?_ofRecord [("from", toJson step.source), ("to", toJson step.target),
        ("trigger", toJson step.trigger), ("timestamp", toJson step.time)] (by simp)
    change ((toJson step).record? ["from", "to", "trigger", "timestamp"]).bind _ = _
    rw [hread, Option.bind_some]
    simp only [ofJson?_toJson hsource, ofJson?_toJson htarget, ofJson?_toJson htrigger,
      ofJson?_toJson htime, Option.bind_eq_bind, Option.bind_some]

instance : Lawful History where
  Fits h := Fits h.steps
  isPlain_toJson h := Json.isPlain_ofRecord (by simp [isPlain_toJson])
  ofJson?_toJson {h} hsteps := by
    have hread : (toJson h).record? ["transitions"] = some [toJson h.steps] :=
      @Json.record?_ofRecord [("transitions", toJson h.steps)] (by simp)
    change ((toJson h).record? ["transitions"]).bind _ = _
    rw [hread, Option.bind_some]
    simp only [ofJson?_toJson hsteps, Option.bind_eq_bind, Option.bind_some]

instance : Lawful Checkpoint where
  Fits c := Fits c.start ∧ Fits c.current ∧ Fits c.history
  isPlain_toJson c := Json.isPlain_ofRecord (by simp [isPlain_toJson])
  ofJson?_toJson {c} h := by
    obtain ⟨hstart, hcurrent, hhistory⟩ := h
    have hversion : Fits c.version := trivial
    have hid : Fits c.id := trivial
    have htime : Fits c.time := trivial
    have hlabel : Fits c.currentLabel := trivial
    have hread : (toJson c).record?
        ["version", "id", "timestamp", "start", "current", "current_label", "history"] =
        some [toJson c.version, toJson c.id, toJson c.time, toJson c.start, toJson c.current,
          toJson c.currentLabel, toJson c.history] :=
      @Json.record?_ofRecord [("version", toJson c.version), ("id", toJson c.id),
        ("timestamp", toJson c.time), ("start", toJson c.start), ("current", toJson c.current),
        ("current_label", toJson c.currentLabel), ("history", toJson c.history)] (by simp)
    change ((toJson c).record?
      ["version", "id", "timestamp", "start", "current", "current_label", "history"]).bind _ = _
    rw [hread, Option.bind_some]
    simp only [ofJson?_toJson hversion, ofJson?_toJson hid, ofJson?_toJson htime,
      ofJson?_toJson hstart, ofJson?_toJson hcurrent, ofJson?_toJson hlabel,
      ofJson?_toJson hhistory, Option.bind_eq_bind, Option.bind_some]

end JsonForm

end StateDiagram
