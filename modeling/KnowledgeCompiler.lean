import KnowledgeCompiler.Ledger.Crash
import KnowledgeCompiler.Recompilation.Honesty
import KnowledgeCompiler.Recompilation.Order
import KnowledgeCompiler.World.Crash
import KnowledgeCompiler.World.Manifest
import KnowledgeCompiler.Parallel.Conservation
import KnowledgeCompiler.Parallel.Partition
import KnowledgeCompiler.Parallel.Recording
import KnowledgeCompiler.Parallel.Overtaking
import KnowledgeCompiler.Parallel.Replanning
import KnowledgeCompiler.Parallel.Majority
import KnowledgeCompiler.Reuse.Schedules
import KnowledgeCompiler.Recompilation.Levels
import KnowledgeCompiler.Recompilation.Accounting
import KnowledgeCompiler.Trust.DataChannel
import KnowledgeCompiler.Trust.Verification
import KnowledgeCompiler.Inspection.RecoveryLoop
import KnowledgeCompiler.Inspection.Verdict
import KnowledgeCompiler.Temporal.Reconstruction
import KnowledgeCompiler.Parallel.Emission
import KnowledgeCompiler.Service.Lifecycle
import KnowledgeCompiler.Service.BlockMerge
import KnowledgeCompiler.Exporters.SignedPackages
import KnowledgeCompiler.Exporters.VaultFidelity
import KnowledgeCompiler.Desktop.Counters
import KnowledgeCompiler.Answers.Resolution
import KnowledgeCompiler.Parallel.Atomicity
import KnowledgeCompiler.Parallel.Footnotes
import KnowledgeCompiler.Recompilation.Cycles
import KnowledgeCompiler.Identity.Agreement
import KnowledgeCompiler.Desktop.Repair
import KnowledgeCompiler.Exporters.TableChunks
import KnowledgeCompiler.Desktop.Sink
import KnowledgeCompiler.Sources.Polling
import KnowledgeCompiler.Temporal.Contradictions
import KnowledgeCompiler.Inspection.Correlation
import KnowledgeCompiler.Documents.Merging
import KnowledgeCompiler.Documents.HeadingRequest
import KnowledgeCompiler.Trust.PublicPayload
import KnowledgeCompiler.Entities.AutoMerge
import KnowledgeCompiler.Parallel.BinPacking
import KnowledgeCompiler.Ledger.Sequence
import KnowledgeCompiler.Quality.Ambiguity
import KnowledgeCompiler.Quality.UnitSoundness
import KnowledgeCompiler.Retrieval.NumericAnswer
import KnowledgeCompiler.Ontology.Proposals
import KnowledgeCompiler.Trust.SensitiveData
import KnowledgeCompiler.LocalMcp.AsOf
import KnowledgeCompiler.Recompilation.Cursor
import KnowledgeCompiler.NativeParsers.Subtitles
import KnowledgeCompiler.Router.EstimateOrder
import KnowledgeCompiler.Documents.CaptionOrder
import KnowledgeCompiler.Absorption.IdentityBridge
import KnowledgeCompiler.Recompilation.Extraction
import KnowledgeCompiler.Desktop.JournalFile
import KnowledgeCompiler.Exporters.UnitText
import KnowledgeCompiler.Parallel.EventHistory
