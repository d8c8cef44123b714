import FrappeController.Library.Transaction
import FrappeController.Library.Table
import FrappeController.Library.Run
import FrappeController.Library.Log
import FrappeController.Ingestion
import FrappeController.FrappeRepository
import FrappeController.FrappeRepositoryTheorems
import FrappeController.Python
import FrappeController.Tables
import FrappeController.Security
import FrappeController.Dispatcher
import FrappeController.DispatcherTheorems
import FrappeController.FeatureFlags
import FrappeController.FrappeStore
import FrappeController.FrappeStoreTheorems
import FrappeController.EventLogTheorems
import FrappeController.OperationLifecycle
import FrappeController.TerminalStates
import FrappeController.DispatchGate
import FrappeController.Library.Snapshot
import FrappeController.Library.Ballot
import FrappeController.Approvals
import FrappeController.ApprovalRules
import FrappeController.ApprovalTheorems
import FrappeController.Timestamps
import FrappeController.ControllerStore
import FrappeController.Library.Lease
import FrappeController.LeaseExclusivity
import FrappeController.CanonicalJson
import FrappeController.Library.Replay
import FrappeController.ResultAgreement
import FrappeController.Inventory
import FrappeController.FrappeInventory
import FrappeController.InventoryTheorems
import FrappeController.FrappeInventoryTheorems
import FrappeController.Library.Projection
import FrappeController.InventoryProjection
import FrappeController.ServerAgents
import FrappeController.AgentRequests
import FrappeController.AgentUpgrades
import FrappeController.ServerAgentTheorems
import FrappeController.AgentUpgradeTheorems
import FrappeController.AgentRuns
import FrappeController.UpgradeStates
import FrappeController.SavableAgents
import FrappeController.UpgradeFreshness
import FrappeController.SignedRequests
import FrappeController.CommandSnapshot
import FrappeController.Library.Trace
import FrappeController.Bulk
import FrappeController.BulkOrchestrator
import FrappeController.BulkGating
import FrappeController.JsonText
import FrappeController.SourceData
import FrappeController.SourceDataTheorems
import FrappeController.CredentialRoutes
import FrappeController.CredentialRouteTheorems
import FrappeController.Library.OneTime
import FrappeController.EnrollmentTokens
import FrappeController.StoreEnrollment
import FrappeController.EnrollmentTheorems
import FrappeController.OperationDocuments
import FrappeController.OperationAuthoring
import FrappeController.CustomerSites
import FrappeController.OperationRequests
import FrappeController.Library.Lineage
import FrappeController.OperationAuthoringTheorems
import FrappeController.RequestRepeats
import FrappeController.RetryLineage
import FrappeController.PythonText
import FrappeController.JsonReader
import FrappeController.JsonReaderTheorems
import FrappeController.JsonRoundTrip
import FrappeController.SnapshotReload
import FrappeController.LifecycleAuthoring
import FrappeController.LifecycleAuthoringTheorems
import FrappeController.LifecyclePayloads
import FrappeController.DataUpdateAuthoring
import FrappeController.DataUpdateValues
import FrappeController.DataUpdateFields
import FrappeController.DataUpdateTheorems
import FrappeController.DataUpdatePromotion
import FrappeController.NormalizerFaults
import FrappeController.S3Routes
import FrappeController.RestoreScope
import FrappeController.Library.Rotation
import FrappeController.CustomerRotation
import FrappeController.SiteDomains
import FrappeController.Library.Keyed
import FrappeController.Library.LengthPrefixed
import FrappeController.TargetKeys
import FrappeController.BulkSelection
import FrappeController.BulkSelectionTheorems
import FrappeController.Library.DelimitedText
import FrappeController.CsvImport
import FrappeController.CsvRoundTrip
import FrappeController.SourceCatalog
import FrappeController.SourceCatalogTheorems
import FrappeController.Library.Since
import FrappeController.OperationTimeline
import FrappeController.TimelineProgress
import FrappeController.TimelineConsistency
import FrappeController.SourceLookup
import FrappeController.SourceLookupTheorems
import FrappeController.BrowseCache
import FrappeController.ChangeOutcomes
import FrappeController.BrowseCoherence
import FrappeController.Library.Partition
import FrappeController.Library.AddressText
import FrappeController.SourceOrigin
import FrappeController.SourceOriginTheorems
import FrappeController.BulkDocuments
import FrappeController.FrappeBulk
import FrappeController.FrappeBulkTheorems
import FrappeController.BulkLifecycle
import FrappeController.BulkChildren
import FrappeController.BulkProgress
import FrappeController.BulkBlocked
import FrappeController.Library.Interruption
import FrappeController.OperationNamespace
import FrappeController.OperationNamespaceTheorems
import FrappeController.OperationNamespacePreservation
import FrappeController.Certificates
import FrappeController.CertificateTheorems
