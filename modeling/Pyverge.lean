import Pyverge.Py.Effects
import Pyverge.Py.Traces
import Pyverge.Py.Heap
import Pyverge.Py.Exhaustion
import Pyverge.Py.Bisect
import Pyverge.Py.Walks
import Pyverge.Py.Search
import Pyverge.Py.SearchOrder
import Pyverge.Py.TopologicalSort
import Pyverge.Py.Dict
import Pyverge.Py.Buckets
import Pyverge.Py.Lists
import Pyverge.Py.Json
import Pyverge.Py.CanonicalJson
import Pyverge.Py.JsonPatch
import Pyverge.Py.Respects
import Pyverge.Py.Rollback
import Pyverge.Py.Sorted
import Pyverge.Py.Repr
import Pyverge.Py.JsonText
import Pyverge.Py.JsonDecoder
import Pyverge.Py.Lru
import Pyverge.Versioning.Identity
import Pyverge.Versioning.Edges
import Pyverge.Versioning.Digests
import Pyverge.Versioning.Versions
import Pyverge.Versioning.Parsing
import Pyverge.Versioning.CanonicalForms
import Pyverge.Versioning.RoundTrip
import Pyverge.Versioning.Canonicalizer
import Pyverge.Versioning.Hashing
import Pyverge.Registry.State
import Pyverge.Registry.Health
import Pyverge.Registry.Operations
import Pyverge.Registry.Runs
import Pyverge.Registry.Frames
import Pyverge.Registry.NodeOrder
import Pyverge.Registry.HealthMaps
import Pyverge.Registry.EdgeOrder
import Pyverge.Registry.ModelIndex
import Pyverge.Registry.EdgeIndex
import Pyverge.Registry.DigestIndex
import Pyverge.Registry.Refusals
import Pyverge.Registry.Removals
import Pyverge.Registry.HealthRebuild
import Pyverge.Registry.Rollbacks
import Pyverge.Registry.RemoveRange
import Pyverge.Registry.DeleteKind
import Pyverge.Graph.Snapshot
import Pyverge.Graph.Contents
import Pyverge.Graph.ContentDigest
import Pyverge.Graph.Observations
import Pyverge.Graph.Paths
import Pyverge.Graph.Discovery
import Pyverge.Graph.Lookup
import Pyverge.Graph.Queries
import Pyverge.Graph.Store
import Pyverge.Graph.Traversal
import Pyverge.Graph.Native
import Pyverge.Graph.TopologicalOrder
import Pyverge.Planning.Path
import Pyverge.Planning.PathPlan
import Pyverge.Planning.Levels
import Pyverge.Planning.BottomUp
import Pyverge.Planning.Positions
import Pyverge.Planning.LensLaws
import Pyverge.Planning.Preorder
import Pyverge.Planning.Moves
import Pyverge.Planning.Finder
import Pyverge.Planning.Targets
import Pyverge.Planning.TargetLaws
import Pyverge.Planning.Chains
import Pyverge.Planning.MissingPaths
import Pyverge.Runtime.Steps
import Pyverge.Runtime.Plan
import Pyverge.Runtime.InPlace
import Pyverge.Runtime.Nested
import Pyverge.Runtime.Backends
import Pyverge.Runtime.Middleware
import Pyverge.Runtime.LayerCalls
import Pyverge.Runtime.Settlement
import Pyverge.Runtime.Idempotency
import Pyverge.Runtime.Telemetry
import Pyverge.Runtime.Tracing
import Pyverge.Runtime.Correlation
import Pyverge.Runtime.Accounting
import Pyverge.Runtime.RunEvents
import Pyverge.Runtime.Lifecycle
import Pyverge.Runtime.Brackets
import Pyverge.Runtime.Dumped
import Pyverge.Runtime.Extraction
import Pyverge.Runtime.Coordinator
import Pyverge.Runtime.NoOps
import Pyverge.Runtime.PlanTable
import Pyverge.Runtime.Runner
import Pyverge.Runtime.Retries
import Pyverge.Runtime.Guided
import Pyverge.Runtime.Containerless
import Pyverge.Runtime.TargetValidation
import Pyverge.Runtime.AsyncRuns
import Pyverge.Runtime.Manager
import Pyverge.Runtime.SharedBindings
import Pyverge.Runtime.TwoStores
import Pyverge.Runtime.Lookups
import Pyverge.Runtime.Upgrades
import Pyverge.Export.Jgf
import Pyverge.Export.Changes
import Pyverge.Export.Manifest
import Pyverge.Export.ExportDigest
import Pyverge.Export.JgfImport
import Pyverge.Reflection.FieldChanges
import Pyverge.Reflection.PatchDiscovery
import Pyverge.Reflection.SchemaDiff
import Pyverge.Reflection.Binding
import Pyverge.Reflection.Models
import Pyverge.Reflection.Inversion
import Pyverge.Reflection.Compatibility
import Pyverge.Reflection.Annotations
import Pyverge.Reflection.Descriptions
import Pyverge.Reflection.NestedModels
import Pyverge.Reflection.Interning
import Pyverge.Reflection.Reconstruction
import Pyverge.Adapters.Convergence
import Pyverge.Adapters.Httpx
import Pyverge.Adapters.Faststream
import Pyverge.Adapters.Components
import Pyverge.Adapters.Builder
import Pyverge.Adapters.Entrances
import Pyverge.Adapters.Projection
import Pyverge.Adapters.Startup
