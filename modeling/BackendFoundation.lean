import BackendFoundation.RequestPrograms
import BackendFoundation.KeyedTables
import BackendFoundation.ReadCommitted
import BackendFoundation.PythonValues
import BackendFoundation.AuthPersistence
import BackendFoundation.AuthPrograms
import BackendFoundation.TransactionLogic
import BackendFoundation.AuthSpecs
import BackendFoundation.AuthAtomicity
import BackendFoundation.RateLimiter
import BackendFoundation.RateLimiterProofs
import BackendFoundation.ExpiringKeys
import BackendFoundation.IdempotencyStore
import BackendFoundation.IdempotencyLifetimes
import BackendFoundation.IdempotencyProofs
import BackendFoundation.IdempotencyOwners
import BackendFoundation.UserProfiles
import BackendFoundation.ReadCommittedProofs
import BackendFoundation.AuthDiscipline
import BackendFoundation.LinkedChains
import BackendFoundation.AuthSessions
import BackendFoundation.AuthRotation
import BackendFoundation.AuthRevocation
import BackendFoundation.AuthErrors
import BackendFoundation.FamilySimulation
import BackendFoundation.FileUrls
import BackendFoundation.SoloRuns
import BackendFoundation.AuthFamilies
import BackendFoundation.RateLimitDecisions
import BackendFoundation.AuthRegistration
import BackendFoundation.AuthEdge
import BackendFoundation.ClaimErrors
import BackendFoundation.JsonTexts
import BackendFoundation.TokenRoundTrip
import BackendFoundation.TokenLifetimes
import BackendFoundation.HttpResponses
import BackendFoundation.MiddlewareStack
import BackendFoundation.EdgeResponses
import BackendFoundation.KeyedServers
import BackendFoundation.SharedRedis
import BackendFoundation.AdapterIsolation
import BackendFoundation.FileTrees
import BackendFoundation.BlobStorage
import BackendFoundation.BlobStorageProofs
import BackendFoundation.BlobStreams
import BackendFoundation.CsvSettings
import BackendFoundation.HttpClient
import BackendFoundation.CorrelationIds
import BackendFoundation.HealthProbes
import BackendFoundation.AppLifespan
import BackendFoundation.LifespanBalance
import BackendFoundation.RevocationTimes
import BackendFoundation.RequestValidation
import BackendFoundation.SecretDisclosure
import BackendFoundation.SymbolicLinks
import BackendFoundation.PathValidation
import BackendFoundation.ReferentialIntegrity
import BackendFoundation.AuthIntegrity
import BackendFoundation.FamilyBearers
import BackendFoundation.AuthGrants
import BackendFoundation.AuthWarrants
import BackendFoundation.AuthPrincipals
import BackendFoundation.ProfileRequests
import BackendFoundation.RelyGuarantee
import BackendFoundation.BlobProcesses
import BackendFoundation.TokenQueries
import BackendFoundation.AuthenticatedProfiles
import BackendFoundation.TransactionWaits
import BackendFoundation.SessionSteps
import BackendFoundation.AuthWaits
import BackendFoundation.Catalogs
import BackendFoundation.MigrationChains
import BackendFoundation.SchemaMigrations
import BackendFoundation.CatalogRows
import BackendFoundation.MigratedTables
import BackendFoundation.SerialRuns
import BackendFoundation.CacheCounters
import BackendFoundation.CacheValues
