import Satoidc.Proofs.CallbackReplay
import Satoidc.Proofs.DecisionRaces
import Satoidc.Proofs.KeyRaces
import Satoidc.Proofs.KeyRetention
import Satoidc.Proofs.SignInMethods
import Satoidc.Proofs.RedirectSafety
import Satoidc.Proofs.WalletIdentity
import Satoidc.Proofs.CodeRedemption
import Satoidc.Proofs.RefreshChains
import Satoidc.Proofs.PageActions
import Satoidc.Proofs.WalletChanges
import Satoidc.Proofs.ClientManagement
import Satoidc.Proofs.PermissionProvenance
import Satoidc.Proofs.Introspection
import Satoidc.Proofs.DisabledClients
import Satoidc.Proofs.TokenLifetimes
import Satoidc.Proofs.IdTokenSigning
import Satoidc.Proofs.ClientRaces
import Satoidc.Proofs.SignInSessions
import Satoidc.Proofs.DestinationRoutes
import Satoidc.Proofs.KeyAudit
import Satoidc.Proofs.DeveloperAccess
import Satoidc.Proofs.PermissionTaxonomy
import Satoidc.Proofs.CookieReplay
import Satoidc.Proofs.Identifiers
import Satoidc.Proofs.BareEmails
import Satoidc.Proofs.RootBootstrap
import Satoidc.Proofs.NonceReplay
import Satoidc.Proofs.ClientForms
import Satoidc.Proofs.EditDialog
import Satoidc.Proofs.FormView
import Satoidc.Proofs.PasswordSignIn
import Satoidc.Proofs.CallbackAnswers
import Satoidc.Proofs.ScopeClaims
import Satoidc.Proofs.RegistrationFields
import Satoidc.Proofs.KeyStates
import Satoidc.Proofs.Consents
import Satoidc.Proofs.ConsentForms
import Satoidc.Proofs.KeyAuthority
import Satoidc.Proofs.DashboardOwners
import Satoidc.Proofs.SessionOrigins
import Satoidc.Proofs.AccountOwners
import Satoidc.Proofs.AccessRequests
import Satoidc.Proofs.Revocations
import Satoidc.Proofs.StoredForms
import Satoidc.Proofs.WalletSignIn
import Satoidc.Proofs.ChainOfTrust
import Satoidc.Proofs.SignedInConsents
