import StateDiagram.Bytes.Form
import StateDiagram.Checkpoint
import StateDiagram.Packed.Basic
import StateDiagram.Stats
import StateDiagram.TransitionMatrix

/-!
# Byte forms of records

The fields of a record stand one after another, without names.
-/

namespace StateDiagram.ByteForm

/-! ## Scalars -/

instance : ByteForm Scalar where
  encode
    | .text t => encodeTag 0 ++ encode t
    | .number n => encodeTag 1 ++ encode n
  decode? bytes := do
    let (tag, bytes) ← decodeTag? bytes
    match tag with
    | 0 => (decode? bytes).map fun (t, rest) => (.text t, rest)
    | 1 => (decode? bytes).map fun (n, rest) => (.number n, rest)
    | _ => none

/-! ## Matrices and statistics -/

instance : ByteForm TransitionMatrix where
  encode m := encode m.rows
  decode? bytes := do
    let (rows, rest) ← decode? bytes
    some (⟨rows⟩, rest)

instance : ByteForm Stats where
  encode s :=
    encode s.events ++ encode s.hasDefault ++ encode s.states ++ encode s.terminalStates ++
      encode s.maxOutDegree ++ encode s.minOutDegree
  decode? bytes := do
    let (events, bytes) ← decode? bytes
    let (hasDefault, bytes) ← decode? bytes
    let (states, bytes) ← decode? bytes
    let (terminalStates, bytes) ← decode? bytes
    let (maxOutDegree, bytes) ← decode? bytes
    let (minOutDegree, rest) ← decode? bytes
    some (⟨events, hasDefault, states, terminalStates, maxOutDegree, minOutDegree⟩, rest)

/-! ## Packed tables -/

instance : ByteForm Layout where
  encode
    | .fixedWidth => encodeTag 0
    | .strided => encodeTag 1
  decode? bytes := do
    let (tag, rest) ← decodeTag? bytes
    match tag with
    | 0 => some (.fixedWidth, rest)
    | 1 => some (.strided, rest)
    | _ => none

instance : ByteForm PackOptions where
  encode o := encode o.layout ++ encode o.tokenLength
  decode? bytes := do
    let (layout, bytes) ← decode? bytes
    let (tokenLength, rest) ← decode? bytes
    some (⟨layout, tokenLength⟩, rest)

instance : ByteForm SymbolKind where
  encode
    | .state => encodeTag 0
    | .event => encodeTag 1
  decode? bytes := do
    let (tag, rest) ← decodeTag? bytes
    match tag with
    | 0 => some (.state, rest)
    | 1 => some (.event, rest)
    | _ => none

instance : ByteForm NameConflict where
  encode c := encode c.kind ++ encode c.name ++ encode c.indices
  decode? bytes := do
    let (kind, bytes) ← decode? bytes
    let (name, bytes) ← decode? bytes
    let (indices, rest) ← decode? bytes
    some (⟨kind, name, indices⟩, rest)

instance : ByteForm Legend where
  encode l :=
    encode l.layout ++ encode l.stateNames ++ encode l.eventNames ++ encode l.rowPositions ++
      encode l.conflicts
  decode? bytes := do
    let (layout, bytes) ← decode? bytes
    let (stateNames, bytes) ← decode? bytes
    let (eventNames, bytes) ← decode? bytes
    let (rowPositions, bytes) ← decode? bytes
    let (conflicts, rest) ← decode? bytes
    some (⟨layout, stateNames, eventNames, rowPositions, conflicts⟩, rest)

instance : ByteForm PackedTable where
  encode p := encode p.buffer ++ encode p.legend
  decode? bytes := do
    let (buffer, bytes) ← decode? bytes
    let (legend, rest) ← decode? bytes
    some (⟨buffer, legend⟩, rest)

/-! ## Histories and checkpoints -/

instance : ByteForm Step where
  encode s := encode s.source ++ encode s.target ++ encode s.trigger ++ encode s.time
  decode? bytes := do
    let (source, bytes) ← decode? bytes
    let (target, bytes) ← decode? bytes
    let (trigger, bytes) ← decode? bytes
    let (time, rest) ← decode? bytes
    some (⟨source, target, trigger, time⟩, rest)

instance : ByteForm History where
  encode h := encode h.steps
  decode? bytes := do
    let (steps, rest) ← decode? bytes
    some (⟨steps⟩, rest)

instance : ByteForm Checkpoint where
  encode c :=
    encode c.version ++ encode c.id ++ encode c.time ++ encode c.start ++ encode c.current ++
      encode c.currentLabel ++ encode c.history
  decode? bytes := do
    let (version, bytes) ← decode? bytes
    let (id, bytes) ← decode? bytes
    let (time, bytes) ← decode? bytes
    let (start, bytes) ← decode? bytes
    let (current, bytes) ← decode? bytes
    let (currentLabel, bytes) ← decode? bytes
    let (history, rest) ← decode? bytes
    some (⟨version, id, time, start, current, currentLabel, history⟩, rest)

end StateDiagram.ByteForm
