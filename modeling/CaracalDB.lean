import CaracalDB.WalSegment
import CaracalDB.WalDirectory
import CaracalDB.Wal
import CaracalDB.TornTail
import CaracalDB.Checkpoint
import CaracalDB.LogView
import CaracalDB.RecoveredCounter
import CaracalDB.WalSession
import CaracalDB.SegmentRolls
import CaracalDB.RustWal
import CaracalDB.RustSession
import CaracalDB.LsnReuse
import CaracalDB.Recovery
import CaracalDB.RecoveryRun
import CaracalDB.Csr
import CaracalDB.Dict
import CaracalDB.Call
import CaracalDB.LocalName
import CaracalDB.Snapshots
import CaracalDB.SnapshotWrites
import CaracalDB.KeyedMerge
import CaracalDB.UpsertPlan
import CaracalDB.UpsertMerge
import CaracalDB.EdgeMerge
import CaracalDB.UpsertRewrite
import CaracalDB.WriteClock
import CaracalDB.WhereExpr
import CaracalDB.PackedBundle
import CaracalDB.CloseDatabase
import CaracalDB.Ranked
import CaracalDB.TextScore
import CaracalDB.TextSearch
import CaracalDB.TextReach
import CaracalDB.Filing
import CaracalDB.SimplePaths
import CaracalDB.PathQuery
import CaracalDB.PathAnswers
import CaracalDB.FileSteps
import CaracalDB.KeptAdjacency
import CaracalDB.CurrentAdjacency
import CaracalDB.CsrReaders
import CaracalDB.CsrSafety
import CaracalDB.Visibility
import CaracalDB.StoreIds
import CaracalDB.SnapshotRegistry
import CaracalDB.BufferPool
import CaracalDB.CurrentReaders
import CaracalDB.InsertedRows
import CaracalDB.InsertedValues
import CaracalDB.VectorIndex
import CaracalDB.VectorSearch
import CaracalDB.MixedStores
import CaracalDB.MixedReaders
import CaracalDB.CatalogCodec
import CaracalDB.CatalogRegistry
import CaracalDB.CatalogIntegrity
import CaracalDB.PlanExecution
import CaracalDB.PlanMeaning
import CaracalDB.CatalogRecords
import CaracalDB.CatalogFile
import CaracalDB.HierarchyAnswers
import CaracalDB.HierarchyQuery
import CaracalDB.Digraph
import CaracalDB.ClassHierarchy
import CaracalDB.MixedSchemas
import CaracalDB.PlanHonoured
import CaracalDB.PlanAgreement
import CaracalDB.ColumnSegment
import CaracalDB.ColumnReaders
import CaracalDB.ColumnAgreement
import CaracalDB.TransactionLog
import CaracalDB.WalCodec
import CaracalDB.Bisect
import CaracalDB.DictStore
import CaracalDB.CsrRoundTrip
import CaracalDB.HierarchyDag
import CaracalDB.ClosureFile
import CaracalDB.VarPath
import CaracalDB.KHop
import CaracalDB.Reasoner
import CaracalDB.TransitiveInference
import CaracalDB.InferredHistory
import CaracalDB.HashJoin
import CaracalDB.ThreeValued
import CaracalDB.ClosureScan
import CaracalDB.LogicalRules
import CaracalDB.RewriteMeaning
import CaracalDB.LeftJoin
import CaracalDB.DictFiles
import CaracalDB.SegmentReaders
import CaracalDB.BatchNeighbors
import CaracalDB.RdfLowering
import CaracalDB.NeighborSamples
import CaracalDB.SamplingEngines
import CaracalDB.BreadthFirst
import CaracalDB.CsrSearch
import CaracalDB.LruK
import CaracalDB.RdfLiterals
import CaracalDB.HopRanges
import CaracalDB.PatternLowering
import CaracalDB.AggregateNames
import CaracalDB.InferenceBudget
import CaracalDB.JointClosure
import CaracalDB.GlobalOrder
import CaracalDB.NeighborAnswers
import CaracalDB.BoundedSubgraph
import CaracalDB.SubgraphBounds
import CaracalDB.SubgraphAnswers
import CaracalDB.ResultModifiers
import CaracalDB.QueryProfile
import CaracalDB.ExecInsert
import CaracalDB.TensorExport
import CaracalDB.OnlineFeatures
import CaracalDB.SubgraphExchange
import CaracalDB.GraphFrames
import CaracalDB.BundleDiff
import CaracalDB.ParquetLoad
import CaracalDB.BoundedPaths
import CaracalDB.LayeredSampling
import CaracalDB.GnnSampling
import CaracalDB.StoredKeys
import CaracalDB.ResourceRuns
import CaracalDB.ByteText
import CaracalDB.SubsetParser
import CaracalDB.TuftSyntax
import CaracalDB.TypeChecker
import CaracalDB.TypeRules
import CaracalDB.TuftBinder
import CaracalDB.NameAgreement
import CaracalDB.PythonLiterals
import CaracalDB.PythonNumbers
import CaracalDB.LiteralDecoding
import CaracalDB.LiteralErrors
import CaracalDB.BoundedLoops
import CaracalDB.NodeIds
import CaracalDB.Procedures
import CaracalDB.SeedPaths
