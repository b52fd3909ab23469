import StateDiagram.Checkpoint
import StateDiagram.Json.Form
import StateDiagram.Packed.Basic
import StateDiagram.Stats
import StateDiagram.TransitionMatrix

/-!
# JSON forms of records

Fields are written in the order in which they are declared here.
-/

namespace StateDiagram.JsonForm

/-! ## Scalars -/

instance : JsonForm Scalar where
  toJson
    | .text t => .ofRecord [("Text", toJson t)]
    | .number n => .ofRecord [("Number", toJson n)]
  ofJson?
    | .object [(some "Text", j)] => (ofJson? j).map .text
    | .object [(some "Number", j)] => (ofJson? j).map .number
    | _ => none

/-! ## Matrices and statistics -/

instance : JsonForm TransitionMatrix where
  toJson m := .ofRecord [("rows", toJson m.rows)]
  ofJson? j := do
    let [rows] ← j.record? ["rows"] | none
    some ⟨← ofJson? rows⟩

instance : JsonForm Stats where
  toJson s := .ofRecord
    [("events", toJson s.events), ("has_default", toJson s.hasDefault),
      ("states", toJson s.states), ("terminal_states", toJson s.terminalStates),
      ("max_out_degree", toJson s.maxOutDegree), ("min_out_degree", toJson s.minOutDegree)]
  ofJson? j := do
    let [events, hasDefault, states, terminalStates, maxOutDegree, minOutDegree] ← j.record?
        ["events", "has_default", "states", "terminal_states", "max_out_degree",
          "min_out_degree"] | none
    some ⟨← ofJson? events, ← ofJson? hasDefault, ← ofJson? states, ← ofJson? terminalStates,
      ← ofJson? maxOutDegree, ← ofJson? minOutDegree⟩

/-! ## Packed tables -/

instance : JsonForm Layout where
  toJson
    | .fixedWidth => .ofText "fixed_width"
    | .strided => .ofText "strided"
  ofJson? j := do
    match ← j.variant? with
    | "fixed_width" => some .fixedWidth
    | "strided" => some .strided
    | _ => none

instance : JsonForm PackOptions where
  toJson o := .ofRecord [("layout", toJson o.layout), ("name_token_len", toJson o.tokenLength)]
  ofJson? j := do
    let [layout, tokenLength] ← j.fields? ["layout", "name_token_len"] | none
    let layout ← layout.elim (some PackOptions.standard.layout) ofJson?
    let tokenLength ← tokenLength.elim (some PackOptions.standard.tokenLength) ofJson?
    some ⟨layout, tokenLength⟩

instance : JsonForm SymbolKind where
  toJson
    | .state => .ofText "State"
    | .event => .ofText "Event"
  ofJson? j := do
    match ← j.variant? with
    | "State" => some .state
    | "Event" => some .event
    | _ => none

instance : JsonForm NameConflict where
  toJson c := .ofRecord
    [("kind", toJson c.kind), ("name", toJson c.name), ("indices", toJson c.indices)]
  ofJson? j := do
    let [kind, name, indices] ← j.record? ["kind", "name", "indices"] | none
    some ⟨← ofJson? kind, ← ofJson? name, ← ofJson? indices⟩

instance : JsonForm Legend where
  toJson l := .ofRecord
    [("layout", toJson l.layout), ("state_names", toJson l.stateNames),
      ("event_names", toJson l.eventNames), ("row_permutation", toJson l.rowPositions),
      ("conflicts", toJson l.conflicts)]
  ofJson? j := do
    let [layout, stateNames, eventNames, rowPositions, conflicts] ← j.record?
        ["layout", "state_names", "event_names", "row_permutation", "conflicts"] | none
    some ⟨← ofJson? layout, ← ofJson? stateNames, ← ofJson? eventNames,
      ← ofJson? rowPositions, ← ofJson? conflicts⟩

instance : JsonForm PackedTable where
  toJson p := .ofRecord [("buffer", toJson p.buffer), ("source_map", toJson p.legend)]
  ofJson? j := do
    let [buffer, legend] ← j.record? ["buffer", "source_map"] | none
    some ⟨← ofJson? buffer, ← ofJson? legend⟩

/-! ## Histories and checkpoints -/

instance : JsonForm Step where
  toJson s := .ofRecord
    [("from", toJson s.source), ("to", toJson s.target), ("trigger", toJson s.trigger),
      ("timestamp", toJson s.time)]
  ofJson? j := do
    let [source, target, trigger, time] ←
      j.record? ["from", "to", "trigger", "timestamp"] | none
    some ⟨← ofJson? source, ← ofJson? target, ← ofJson? trigger, ← ofJson? time⟩

instance : JsonForm History where
  toJson h := .ofRecord [("transitions", toJson h.steps)]
  ofJson? j := do
    let [steps] ← j.record? ["transitions"] | none
    some ⟨← ofJson? steps⟩

instance : JsonForm Checkpoint where
  toJson c := .ofRecord
    [("version", toJson c.version), ("id", toJson c.id), ("timestamp", toJson c.time),
      ("start", toJson c.start), ("current", toJson c.current),
      ("current_label", toJson c.currentLabel), ("history", toJson c.history)]
  ofJson? j := do
    let [version, id, time, start, current, currentLabel, history] ← j.record?
        ["version", "id", "timestamp", "start", "current", "current_label", "history"] | none
    some ⟨← ofJson? version, ← ofJson? id, ← ofJson? time, ← ofJson? start, ← ofJson? current,
      ← ofJson? currentLabel, ← ofJson? history⟩

end StateDiagram.JsonForm
