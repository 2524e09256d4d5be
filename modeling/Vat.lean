import Vat.Relational.Table
import Vat.Transition.Run
import Vat.Transition.Recorded
import Vat.Python.Text
import Vat.Python.Calendar
import Vat.Model.Finding
import Vat.Model.Ledger
import Vat.Model.Database
import Vat.Identity.ContainerRef
import Vat.Identity.SubjectKey
import Vat.Assets.Resolve
import Vat.Ledger.Lookup
import Vat.Ledger.Apply
import Vat.Ledger.Record
import Vat.Findings.Update
import Vat.Ledger.Waivers
import Vat.Ledger.SubjectAliases
import Vat.Ledger.System
import Vat.Ledger.RevisionHistory
import Vat.Ledger.WaiverJobs
import Vat.Ledger.WriterIdentity
import Vat.Ledger.NewerWork
import Vat.Ledger.Idempotence
import Vat.Redirect.Rooted
import Vat.Assets.AliasTable
import Vat.Assets.FlatAliases
import Vat.Ledger.MergedDecisions
import Vat.Ingest.FingerprintIdentity
import Vat.Audit.Session
import Vat.Audit.Verify
import Vat.Audit.Bulk
import Vat.Audit.Chain
import Vat.Audit.Checkpoint
import Vat.Sync.Refine
import Vat.Correlation.Age
import Vat.Correlation.Chains
import Vat.Findings.GroupKey
import Vat.Findings.Visibility
import Vat.Sbom.Packages
import Vat.Regular.Backtracking
import Vat.Tracker.Untouched
import Vat.Tracker.GroupMarker
import Vat.Tracker.GroupSearch
import Vat.Inbound.AtMostOnce
import Vat.Inbound.Polling
import Vat.Inbound.CanonicalBlock
import Vat.Inbound.FeedbackLoop
import Vat.Identity.KeyNames
import Vat.Identity.ImageDigests
import Vat.Operator.KubernetesInventory
import Vat.Operator.DigestRequests
import Vat.Operator.CoverageFloor
import Vat.Operator.ScanInventory
import Vat.Scanner.ScanQueue
import Vat.Scanner.IncrementalScan
import Vat.Scanner.StrandedRequests
import Vat.Nested.Value
import Vat.Transition.Script
import Vat.Scanner.NoSnippets
import Vat.Ingest.FreshIds
import Vat.Credentials.IngestKeys
import Vat.Credentials.AdminKeys
import Vat.Identity.ImageRefs
import Vat.Frontend.AssetPages
import Vat.Frontend.ContainerKeys
import Vat.Delimited.SelfDelimiting
import Vat.Python.Utf8
import Vat.Export.OpenscapStorage
import Vat.Export.EvidenceBundle
import Vat.Frontend.GroupKeys
import Vat.Transition.Guarded
import Vat.Python.Dynamic
import Vat.Ingest.Validation
import Vat.Ingest.Reimport
import Vat.Parsers.Utils
import Vat.Parsers.Sarif
import Vat.Parsers.Semgrep
import Vat.Parsers.Grype
import Vat.Parsers.Cyclonedx
import Vat.Parsers.OpenscapOval
import Vat.Parsers.OvalDocuments
import Vat.Parsers.OvalResults
import Vat.Export.TenantEvidence
import Vat.Inbound.AikidoWebhook
import Vat.Transition.Transactions
import Vat.Inbound.AikidoEvents
import Vat.Keyed.FirstMatch
import Vat.Sbom.ContainerDigests
import Vat.Ledger.WaiverExport
import Vat.Inbound.AikidoIssues
import Vat.Adapters.Aikido
import Vat.Sync.AikidoDashboard
import Vat.Keyed.Gather
import Vat.Frontend.ReportMetrics
import Vat.Frontend.ReportReconciliation
import Vat.Sbom.BomExport
import Vat.Keyed.GatherOrder
import Vat.Frontend.ReportAssets
import Vat.Frontend.ReportTrends
import Vat.Frontend.ReportOrder
import Vat.Frontend.ReportAgreement
import Vat.Relational.Serial
import Vat.Feeds.Upsert
import Vat.Feeds.Matching
import Vat.Feeds.Ubuntu
import Vat.Feeds.Alpine
import Vat.Assets.DeletedReferences
import Vat.Assets.DeletionIsolation
import Vat.Correlation.Stars
import Vat.Correlation.Symmetry
import Vat.Findings.Groups
import Vat.Feeds.Curation
import Vat.Feeds.OsvCursor
import Vat.Feeds.PackageUrls
import Vat.Assets.Observations
import Vat.Assets.CanonicalReferences
import Vat.Assets.DigestFixpoint
import Vat.Sync.DeletedIssues
import Vat.Sync.Backfill
import Vat.Inbound.OwnFinding
import Vat.Sbom.Licenses
import Vat.Operator.ReferenceCounts
import Vat.Scanner.ManifestFiles
import Vat.Ingest.PartialFingerprints
import Vat.Python.Maps
import Vat.Ingest.RiskDocument
import Vat.Credentials.Lockout
import Vat.Sbom.TrivyExtract
import Vat.Sbom.PercentDecoding
import Vat.Transition.Segments
import Vat.Ingest.Rollup
import Vat.Paged.Fetch
import Vat.Adapters.AikidoListings
import Vat.Adapters.AikidoNames
import Vat.Sorted.Lists
import Vat.Adapters.RequestPacing
import Vat.Signed.Tokens
import Vat.Credentials.SessionTokens
import Vat.Credentials.SignIn
import Vat.Credentials.SignInOrigins
import Vat.Export.SarifOutput
import Vat.Export.SarifReimport
import Vat.Feeds.RefreshLock
