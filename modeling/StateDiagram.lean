import StateDiagram.Bytes.Records
import StateDiagram.Json.Records
import StateDiagram.Packed.Pack
import StateDiagram.Packed.Unpack
import StateDiagram.Proofs.Bytes.Streaming
import StateDiagram.Proofs.Diagram.Locality
import StateDiagram.Proofs.Diagram.Numbering
import StateDiagram.Proofs.Index.Walk
import StateDiagram.Proofs.Machine.Acceptance
import StateDiagram.Proofs.Machine.Firing
import StateDiagram.Proofs.Machine.Reordering
import StateDiagram.Proofs.Machine.Resumption
import StateDiagram.Proofs.Matrix.Degrees
import StateDiagram.Proofs.Matrix.Lossless
import StateDiagram.Proofs.MatrixWalk
import StateDiagram.Proofs.NameCollision
import StateDiagram.Proofs.Packed.Conflicts
import StateDiagram.Proofs.Packed.Inverse
import StateDiagram.Proofs.Packed.Renaming
import StateDiagram.Proofs.Table.Directions
import StateDiagram.Table.Build
