import Embedder.Budget.Ledger
import Embedder.Config.Json
import Embedder.Handle.Registry
import Embedder.Main
import Embedder.Proofs.Session.Blocks
import Embedder.Proofs.Session.Latch
import Embedder.Session.Run
import Embedder.Proofs.Host.Admission
import Embedder.Proofs.Session.Lending
import Embedder.Proofs.Session.Refusal
import Embedder.Proofs.Session.Exclusion
import Embedder.Proofs.Host.Local
import Embedder.Proofs.Host.Confinement
import Embedder.Proofs.Host.Tandem
import Embedder.Proofs.Host.Making
import Embedder.Proofs.Session.Naming
import Embedder.Proofs.Session.Footprint
import Embedder.Proofs.Session.Twins
import Embedder.Proofs.Session.Isolation
import Embedder.Proofs.Host.Report
import Embedder.Proofs.Session.Benchmark
import Embedder.Proofs.Host.Reckoning
import Embedder.Proofs.Host.Disposal
import Embedder.Proofs.Session.Reckoning
import Embedder.Proofs.Host.Headers
import Embedder.Proofs.Session.Ownership
import Embedder.Proofs.Session.Delivery
import Embedder.Proofs.Host.Callbacks
import Embedder.Proofs.Host.Signatures
import Embedder.Proofs.Host.Outcomes
import Embedder.Proofs.Session.Outcomes
import Embedder.Proofs.Host.Standing
import Embedder.Proofs.Host.Operations
import Embedder.Proofs.Host.Sequences
import Embedder.Proofs.Session.Sequences
import Embedder.Proofs.Handle.Adoption
import Embedder.Proofs.Budget.Ledger
import Embedder.Proofs.Sink.Lines
import Embedder.Proofs.Sink.Stacks
import Embedder.Proofs.Heap.Fit
import Embedder.Proofs.Heap.Canonical
import Embedder.Proofs.Host.Marshalling
import Embedder.Proofs.Config.Spelling
import Embedder.Proofs.Config.Selection
import Embedder.Proofs.CommandLine.Arguments
import Embedder.Proofs.CommandLine.Transcript
import Embedder.Proofs.CommandLine.Refinement
import Embedder.Proofs.Session.Reset
import Embedder.Proofs.Session.Contents
import Embedder.Proofs.Session.Globals
import Embedder.Proofs.Session.AppHeap
import Embedder.Proofs.Session.Handover
import Embedder.Proofs.Config.Toml.Acceptance
import Embedder.Proofs.Config.Toml.Reading
import Embedder.Proofs.Config.Toml.Selection
import Embedder.Proofs.Budget.Bounds
import Embedder.Proofs.Host.Phases
import Embedder.Proofs.Session.Shapes
