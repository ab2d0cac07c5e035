import ZedRegistry.Lib.Execution
import ZedRegistry.Lib.DigestChain
import ZedRegistry.Lib.DecimalText
import ZedRegistry.Digest
import ZedRegistry.Timestamp
import ZedRegistry.AuditChain
import ZedRegistry.Access
import ZedRegistry.Interfaces
import ZedRegistry.Lib.RowTable
import ZedRegistry.Catalog
import ZedRegistry.SignedIndex
import ZedRegistry.SigningKeys
import ZedRegistry.ArtifactStore
import ZedRegistry.PackageReader
import ZedRegistry.Artifacts
import ZedRegistry.PublishMachine
import ZedRegistry.PublishInvariant
import ZedRegistry.PublishSteps
import ZedRegistry.PublishAtomic
import ZedRegistry.CanonicalAdoption
import ZedRegistry.ServedAttestation
import ZedRegistry.PublicAliases
import ZedRegistry.Lib.AssocTable
import ZedRegistry.MemoryStore
import ZedRegistry.Lib.TokenBucket
import ZedRegistry.RateLimit
import ZedRegistry.RateWindow
import ZedRegistry.RateLimitReference
import ZedRegistry.AuditVerify
import ZedRegistry.AuditAppend
import ZedRegistry.AuditLogOrder
import ZedRegistry.AuditNoFork
import ZedRegistry.AuditAppendRuns
import ZedRegistry.GraphDocument
import ZedRegistry.DependencyGraph
import ZedRegistry.GraphDisclosure
import ZedRegistry.AliasVisibility
import ZedRegistry.PublishAudit
import ZedRegistry.BinaryContract
import ZedRegistry.CentralDirectory
import ZedRegistry.BinaryArtifact
import ZedRegistry.BinaryVerified
import ZedRegistry.DescriptorAliases
import ZedRegistry.Lib.RelyGuarantee
import ZedRegistry.LocalPut
import ZedRegistry.LocalPromotion
import ZedRegistry.ObjectPut
import ZedRegistry.AliasCollisions
import ZedRegistry.OrgClaims
import ZedRegistry.OrgClaimQuota
import ZedRegistry.PackageSettings
import ZedRegistry.Lib.JsonValue
import ZedRegistry.Lib.MessagePack
import ZedRegistry.MessagePackExport
import ZedRegistry.Lib.Protobuf
import ZedRegistry.ProtobufExport
import ZedRegistry.ProtobufRoundTrip
import ZedRegistry.Lib.Xml
import ZedRegistry.Lib.XmlSpelling
import ZedRegistry.XmlExport
import ZedRegistry.XmlRoundTrip
import ZedRegistry.Lib.JsonText
import ZedRegistry.Lib.Yaml
import ZedRegistry.GraphText
import ZedRegistry.YamlExport
import ZedRegistry.YamlRoundTrip
import ZedRegistry.YamlLossless
import ZedRegistry.Lib.Toml
import ZedRegistry.TomlExport
import ZedRegistry.TomlRoundTrip
import ZedRegistry.TomlLossless
import ZedRegistry.Utf8
import ZedRegistry.Lib.BoundedOutput
import ZedRegistry.Lib.Csv
import ZedRegistry.CsvExport
import ZedRegistry.CsvRecords
import ZedRegistry.GraphDrawing
import ZedRegistry.GraphRendering
import ZedRegistry.AcceptNegotiation
import ZedRegistry.Lib.RouteTemplates
import ZedRegistry.RegistryHost
import ZedRegistry.ApplicationRoutes
import ZedRegistry.RegistrySurface
import ZedRegistry.Lib.DescendingSort
import ZedRegistry.PackageViews
import ZedRegistry.LatestVersion
import ZedRegistry.IndexFloor
import ZedRegistry.KeySetSize
import ZedRegistry.LimiterState
import ZedRegistry.RetryAfter
import ZedRegistry.AuditTampering
import ZedRegistry.PathConflicts
import ZedRegistry.LikeEscaping
import ZedRegistry.FilteredPages
import ZedRegistry.GithubUrls
import ZedRegistry.AuditPages
import ZedRegistry.Lib.PrefixRange
import ZedRegistry.Lib.LikePattern
import ZedRegistry.PackageIntake
import ZedRegistry.StorageEndpoints
import ZedRegistry.Lib.StreamReader
import ZedRegistry.InflationBudget
import ZedRegistry.BackendErrors
import ZedRegistry.Lib.CountRank
import ZedRegistry.AuditBackfill
import ZedRegistry.Lib.OffsetPages
import ZedRegistry.ListPages
import ZedRegistry.ConditionalRequests
import ZedRegistry.RegistryGate
import ZedRegistry.Lib.Dot
import ZedRegistry.Lib.Mermaid
import ZedRegistry.DiagramTokens
import ZedRegistry.CentralWalkLoop
import ZedRegistry.ChunkedDigests
import ZedRegistry.Lib.Simulation
import ZedRegistry.PublicationModel
import ZedRegistry.PublicationRefinement
import ZedRegistry.SelectionModel
import ZedRegistry.SelectionRefinement
import ZedRegistry.Lib.OptionArgs
import ZedRegistry.TokenCommands
import ZedRegistry.TokenLifecycle
import ZedRegistry.TokenHistory
import ZedRegistry.TokenRevocation
import ZedRegistry.ServedArtifacts
import ZedRegistry.YankRequests
import ZedRegistry.YankVisibility
import ZedRegistry.StorageConsole
import ZedRegistry.AccountReads
import ZedRegistry.TokenIntrospection
import ZedRegistry.SemanticSearch
import ZedRegistry.Lib.SharedCache
import ZedRegistry.GraphCaching
import ZedRegistry.ArtifactCaching
import ZedRegistry.AssembledIndex
import ZedRegistry.Lib.UrlPath
import ZedRegistry.PublishSources
import ZedRegistry.TagVerification
import ZedRegistry.LimitedRequests
