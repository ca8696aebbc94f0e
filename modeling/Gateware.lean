import Gateware.Cli.Run
import Gateware.Main
import Gateware.Proofs.Results
import Gateware.Proofs.Semantics.Hardware
import Gateware.Proofs.Lowering.Inversion
import Gateware.Proofs.Lowering.Typing
import Gateware.Proofs.Semantics.Program
import Gateware.Proofs.Generation.Inversion
import Gateware.Proofs.Lowering.Meaning
import Gateware.Proofs.Generation.Typing
import Gateware.Proofs.Lowering.Acceptance
import Gateware.Proofs.Memory.Layout
import Gateware.Proofs.Generation.Acceptance
import Gateware.Proofs.Generation.Names
import Gateware.Proofs.Number.Comparison
import Gateware.Proofs.Pipeline.Registration
import Gateware.Proofs.Pipeline.Visits
import Gateware.Proofs.Pipeline.Policy
import Gateware.Proofs.Compile.Inversion
import Gateware.Proofs.Compile.Trust
import Gateware.Proofs.Files.Tree
import Gateware.Proofs.Pipeline.Interleaving
import Gateware.Proofs.Compile.Steps
import Gateware.Proofs.Compile.Completion
import Gateware.Proofs.Memory.Settings
import Gateware.Proofs.Compile.Failure
import Gateware.Proofs.Compile.Cancellation
import Gateware.Proofs.Number.Rounding
import Gateware.Proofs.Number.Packing
import Gateware.Proofs.Number.Reading
import Gateware.Proofs.Number.Shortest
import Gateware.Proofs.Number.RoundTrip
import Gateware.Proofs.Text.Words
import Gateware.Proofs.Timing.Table
import Gateware.Proofs.Timing.Fields
import Gateware.Proofs.Timing.Format
import Gateware.Proofs.Timing.Printing
import Gateware.Proofs.Number.Whole
import Gateware.Proofs.Settings.Store
import Gateware.Proofs.Timing.Runs
import Gateware.Proofs.Device.Lookup
import Gateware.Proofs.Generation.Separation
import Gateware.Proofs.Vhdl.Handshake
import Gateware.Proofs.Vhdl.Characters
import Gateware.Proofs.Generation.Renaming
import Gateware.Pipeline.Token
import Gateware.Proofs.Pipeline.Token
import Gateware.Proofs.Json.Layout
import Gateware.Proofs.Json.Record
import Gateware.Proofs.Program.Spelling
import Gateware.Proofs.Memory.Exactness
import Gateware.Proofs.Settings.Agreement
import Gateware.Proofs.Lowering.Products
import Gateware.Proofs.Lowering.Circuit
import Gateware.Proofs.Lowering.CriticalPath
import Gateware.Proofs.Timing.Selection
import Gateware.Proofs.Generation.Coverage
import Gateware.Proofs.Vhdl.Constants
import Gateware.Proofs.Vhdl.Reading
import Gateware.Proofs.Memory.Configuration
import Gateware.Proofs.Manifest.Origins
import Gateware.Proofs.Frequency.Reading
import Gateware.Proofs.Hardware.Chain
import Gateware.Proofs.Vhdl.Sanitizing
import Gateware.Proofs.Timing.WholeCycles
