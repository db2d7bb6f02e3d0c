import SerialVector.TapState
import SerialVector.Body.Delivery
import SerialVector.FileSystem
import SerialVector.Main
import SerialVector.Proofs.Conversion
import SerialVector.Proofs.Body.Streaming
import SerialVector.Proofs.Command.Refusal
import SerialVector.Proofs.Program.Refusal
import SerialVector.Proofs.Program.Extension
import SerialVector.Proofs.Program.Turning
import SerialVector.Proofs.Bounded
import SerialVector.Proofs.Conversion.Lossless
import SerialVector.Proofs.Conversion.Cut
import SerialVector.Proofs.Conversion.Overflow
import SerialVector.Proofs.Conversion.Limit
import SerialVector.Proofs.Body.Requests
import SerialVector.Proofs.Conversion.Size
import SerialVector.Proofs.Conversion.Stages
import SerialVector.Proofs.CommandLine.Effects
import SerialVector.Proofs.CommandLine.Expansion
import SerialVector.Proofs.Segment.Canonical
import SerialVector.Proofs.Body.Acceptance
import SerialVector.Proofs.Cursor.Reads
import SerialVector.Proofs.Body.Draining
import SerialVector.Proofs.Program.Index
import SerialVector.Proofs.PathName
