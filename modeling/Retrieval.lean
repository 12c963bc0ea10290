import Retrieval.Sorted.Map
import Retrieval.Sorted.Set
import Retrieval.Code.Basic
import Retrieval.Number.Decimal
import Retrieval.Error
import Retrieval.CodeIndex.Basic
import Retrieval.Json.Reader
import Retrieval.Json.Printer
import Retrieval.Json.Number
import Retrieval.Json.Record
import Retrieval.Descriptor
import Retrieval.Distance
import Retrieval.Hasher.Draws
import Retrieval.Hasher.Document
import Retrieval.Metrics
import Retrieval.Ranking.Kernel
import Retrieval.Index.Stats
import Retrieval.Artifact.Document
import Retrieval.Artifact.Binary
import Retrieval.Index.Transfer
import Retrieval.Files.Replace
import Retrieval.Store.Descriptor
import Retrieval.Store.Classification
import Retrieval.Session.Registry
import Retrieval.Service.Feedback
import Retrieval.Service.Refine
import Retrieval.Service.Lifecycle
import Retrieval.Config.Document
import Retrieval.Artifact.File
import Retrieval.Proofs.CodeIndex.Ball
import Retrieval.Proofs.CodeIndex.Nearest
import Retrieval.Proofs.Hamming
import Retrieval.Proofs.Sorted
import Retrieval.Proofs.CodeIndex.Tree
import Retrieval.Proofs.CodeIndex.Lockstep
import Retrieval.Proofs.Index.Filing
import Retrieval.Proofs.Index.Searching
import Retrieval.Proofs.Artifact.Validity
import Retrieval.Proofs.Index.Catalog
import Retrieval.Proofs.Index.Loading
import Retrieval.Proofs.Index.Run
import Retrieval.Proofs.Index.Probing
import Retrieval.Proofs.Index.Fork
import Retrieval.Proofs.Index.Nearest
import Retrieval.Proofs.Service.World
import Retrieval.Proofs.Service.Touch
import Retrieval.Proofs.Service.Calls
import Retrieval.Proofs.Service.Refinement
import Retrieval.Proofs.Service.Sessions
import Retrieval.Proofs.Index.Transfer
import Retrieval.Proofs.Service.Effect
import Retrieval.Proofs.Service.Idle
import Retrieval.Proofs.Session.Retired
import Retrieval.Proofs.Service.Retirement
import Retrieval.Proofs.Service.Alike
import Retrieval.Proofs.Service.Interleaving
import Retrieval.Proofs.Index.Refusal
import Retrieval.Proofs.Service.Phases
import Retrieval.Proofs.Service.Storing
import Retrieval.Proofs.Code.Text
import Retrieval.Proofs.Binary.Wire
import Retrieval.Proofs.Artifact.Binary
import Retrieval.Proofs.Json.Quotes
import Retrieval.Proofs.Json.Digits
import Retrieval.Proofs.Json.Spelling
import Retrieval.Proofs.Json.Printing
import Retrieval.Proofs.Artifact.Document
import Retrieval.Proofs.Files.Folder
import Retrieval.Proofs.Files.Tree
import Retrieval.Proofs.Files.Replace
import Retrieval.Proofs.Artifact.Saving
import Retrieval.Proofs.Files.Escape
import Retrieval.Proofs.Files.Making
import Retrieval.Proofs.Files.Names
import Retrieval.Proofs.Store.Mirror
import Retrieval.Proofs.Store.Sittings
import Retrieval.Proofs.Store.Descriptor
import Retrieval.Proofs.Json.Doubles
import Retrieval.Proofs.Store.Classification
import Retrieval.Proofs.Json.Fields
import Retrieval.Proofs.Config.Document
import Retrieval.Proofs.Index.Tables
import Retrieval.Proofs.Ranking
import Retrieval.Proofs.Service.Candidates
import Retrieval.Proofs.CodeIndex.Leaves
import Retrieval.Proofs.Index.Origins
import Retrieval.Proofs.Service.Adjudication
import Retrieval.Proofs.Store.Keeping
import Retrieval.Proofs.Service.Recording
import Retrieval.Proofs.Binary.Truncation
import Retrieval.Proofs.Ranking.Kernel
import Retrieval.Proofs.Hasher.Document
import Retrieval.Proofs.Files.Growth
import Retrieval.Proofs.Hasher.Sides
import Retrieval.Proofs.Files.Trouble
import Retrieval.Proofs.Store.Failing
import Retrieval.Proofs.Code.Packing
import Retrieval.Proofs.Code.Order
import Retrieval.Code.Parse
import Retrieval.Proofs.Index.Metering
import Retrieval.Proofs.Store.Paths
import Retrieval.Proofs.Code.Differences
import Retrieval.Proofs.Code.Tails
import Retrieval.Proofs.CodeIndex.Bounds
import Retrieval.Proofs.CodeIndex.Heap
import Retrieval.Proofs.CodeIndex.Majority
