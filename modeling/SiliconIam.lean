import SiliconIam.Webhook.Ordering
import SiliconIam.Postgres.ClaimSafety
import SiliconIam.Auth.FamilyContainment
import SiliconIam.Auth.RefreshIntrospection
import SiliconIam.Auth.AccessKeyValidity
import SiliconIam.Auth.PrivateApplications
import SiliconIam.Organizations.GateCoverage
import SiliconIam.Organizations.InvitationCodes
import SiliconIam.Organizations.CapabilityCeiling
import SiliconIam.Organizations.SingleOwner
import SiliconIam.Organizations.EditAnnouncements
import SiliconIam.Postgres.RuntimeKeyrings
import SiliconIam.Applications.WebhookReview
import SiliconIam.Applications.BindingDecisions
import SiliconIam.Auth.SessionPolicy
import SiliconIam.Applications.ManagementOnce
import SiliconIam.Worker.NotificationLease
import SiliconIam.Sso.Deliveries
import SiliconIam.Sso.AdmissionRuns
import SiliconIam.Cli.SessionStore
import SiliconIam.Organizations.GovernanceHistory
import SiliconIam.Postgres.FixedWindow
import SiliconIam.Postgres.BurstCooldown
import SiliconIam.Applications.Scopes
import SiliconIam.Webhook.Verification
import SiliconIam.Applications.ManagementFeedRuns
import SiliconIam.Auth.WebhookAudienceRuns
import SiliconIam.Auth.SnapshotAgreement
import SiliconIam.Testing.ImportClosure
import SiliconIam.Auth.CredentialDecisions
import SiliconIam.Webhook.Destinations
import SiliconIam.Replay.LegacyJson
import SiliconIam.Organizations.TrustAgreement
import SiliconIam.Auth.StepUpAssertions
