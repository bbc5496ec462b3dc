import VerigenceSecurity.Library.Table
import VerigenceSecurity.Library.RowHistory
import VerigenceSecurity.Library.Transaction
import VerigenceSecurity.Library.ProgramLogic
import VerigenceSecurity.Library.Failures
import VerigenceSecurity.Library.Locking
import VerigenceSecurity.Library.CommitOrder
import VerigenceSecurity.Library.Trace
import VerigenceSecurity.Library.RelyGuarantee
import VerigenceSecurity.Library.Answers
import VerigenceSecurity.Library.Settlement
import VerigenceSecurity.Library.Embedding
import VerigenceSecurity.Library.Evolution
import VerigenceSecurity.Library.Faults
import VerigenceSecurity.Library.LockQueue
import VerigenceSecurity.Library.LockOrder
import VerigenceSecurity.Library.LockDiscipline
import VerigenceSecurity.Library.Guard
import VerigenceSecurity.Library.Lease
import VerigenceSecurity.Library.Serialization
import VerigenceSecurity.Library.AccessGraph
import VerigenceSecurity.Library.Bisection
import VerigenceSecurity.Core
import VerigenceSecurity.PythonText
import VerigenceSecurity.Schema
import VerigenceSecurity.Storage
import VerigenceSecurity.Permissions
import VerigenceSecurity.TenantRbac
import VerigenceSecurity.PrivilegedAccess
import VerigenceSecurity.TenantRoles
import VerigenceSecurity.AuthorizationGraph
import VerigenceSecurity.TenantOperations
import VerigenceSecurity.AuthorizationLocks
import VerigenceSecurity.AuthorizationVersion
import VerigenceSecurity.OverlappingOperations
import VerigenceSecurity.TenantIsolation
import VerigenceSecurity.GuardedStatements
import VerigenceSecurity.MakerChecker
import VerigenceSecurity.RequestLifecycle
import VerigenceSecurity.ModuleCatalog
import VerigenceSecurity.CatalogVersions
import VerigenceSecurity.CatalogEffects
import VerigenceSecurity.CatalogRuns
import VerigenceSecurity.TemplateIntegrity
import VerigenceSecurity.ModuleNamespaces
import VerigenceSecurity.OverlappingPuts
import VerigenceSecurity.CatalogResponses
import VerigenceSecurity.SuperAdminAuthority
import VerigenceSecurity.StandardRoles
import VerigenceSecurity.ReservedRoles
import VerigenceSecurity.GeoSchedule
import VerigenceSecurity.ZoneTables
import VerigenceSecurity.ScheduleWindows
import VerigenceSecurity.ScheduleLimits
import VerigenceSecurity.TokenService
import VerigenceSecurity.TokenPayloads
import VerigenceSecurity.SecurityRepository
import VerigenceSecurity.AccessService
import VerigenceSecurity.ScheduleOverrides
import VerigenceSecurity.TenantAccessConfiguration
import VerigenceSecurity.ConfiguredSchedules
import VerigenceSecurity.SessionRefresh
import VerigenceSecurity.UserLifecycle
import VerigenceSecurity.MachineAccess
import VerigenceSecurity.DelegationChain
import VerigenceSecurity.TokenRoundTrips
import VerigenceSecurity.MachineTokens
import VerigenceSecurity.DeviceLifecycle
import VerigenceSecurity.FieldUpdates
import VerigenceSecurity.UserStatusChanges
import VerigenceSecurity.DeviceApprovals
import VerigenceSecurity.DeviceSessions
import VerigenceSecurity.RefreshFailures
import VerigenceSecurity.AccessGates
import VerigenceSecurity.RenewalAgreement
import VerigenceSecurity.IssuedExpiries
import VerigenceSecurity.AccessDecisions
import VerigenceSecurity.DelegationAfterRevocation
import VerigenceSecurity.DeactivatedUsers
import VerigenceSecurity.SessionLocks
import VerigenceSecurity.SessionDeadlocks
import VerigenceSecurity.RowHistories
import VerigenceSecurity.RefreshedSessions
import VerigenceSecurity.SessionEvidence
import VerigenceSecurity.PlatformBootstrap
import VerigenceSecurity.PlatformTokens
import VerigenceSecurity.FirstSuperAdmin
import VerigenceSecurity.SelfOnboarding
import VerigenceSecurity.ReservedEntries
import VerigenceSecurity.OnboardingCompletion
import VerigenceSecurity.OnboardingRetry
import VerigenceSecurity.MobileNumbers
import VerigenceSecurity.PermissionRetirement
import VerigenceSecurity.RetirementGuard
import VerigenceSecurity.TemplateBindings
import VerigenceSecurity.TemplateProvenance
import VerigenceSecurity.OnboardingStore
import VerigenceSecurity.TenantInvitations
import VerigenceSecurity.SelfRegistrations
import VerigenceSecurity.LiveInvitations
import VerigenceSecurity.OnboardingLocks
import VerigenceSecurity.OnboardingCalls
import VerigenceSecurity.InvitationRuns
import VerigenceSecurity.PendingMemberships
import VerigenceSecurity.InvitationAcceptance
import VerigenceSecurity.SettledInvitations
import VerigenceSecurity.DecidedSelfRequests
