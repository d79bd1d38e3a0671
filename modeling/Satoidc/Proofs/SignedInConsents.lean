import Satoidc.Service
import Satoidc.Proofs.Consents
import Satoidc.Proofs.SessionOrigins

/-! From a token back to a sign-in. A token goes back to an approval, the approval comes
from a session of a browser, and the browser has signed in as the session's user. -/

namespace Satoidc.Proofs.SignedInConsents
open Foundation
open Provider (ChallengeMethods scopeWords)

section runs
variable {env : Settings} {curve : Secp256k1} {host : Host} {methods : ChallengeMethods} {db : Db} {events : List Service.Event}
  {final : Service.State}

/-- A request of the browser has signed it in as the user. -/
def SignedInAs (env : Settings) (curve : Secp256k1) (host : Host) (db : Db) (past : List SignIn.Event)
    (browser : Nat) (user : UserId) :
    Prop :=
  ∃ first cookie request second before, past = first ++ .request browser cookie request :: second ∧
    run (SignIn.step env curve host) (SignIn.initial db) first = some before ∧
    SessionOrigins.SignedIn env curve host db first before browser user request

/-- The browser approves a client's request in a session of the user, with the session's
token. -/
structure ApprovesAs (session : Cookies.ClientSession) (form : Cookies.AuthorizeForm) (user : UserId) : Prop where
  user : session.userId = some user
  token : session.csrfToken = some form.csrfToken
  drawn : form.csrfToken ≠ ""
  decision : form.decision = .approve

theorem read_authorize {signIn : SignIn.State} {request : Service.Request} {index : Nat} {session : Cookies.ClientSession}
    {form : Cookies.AuthorizeForm} {payload : AuthorizationPayload}
    (allowed : Service.read signIn request = some (index, .authorize session form payload)) :
    request = ⟨request.sender, index, .authorize session form payload⟩ ∧ session.toSession ∈ signIn.cookies request.sender := by
  obtain ⟨sender, number, input⟩ := request
  cases input with
  | authorize brought answered asked =>
    simp only [Service.read] at allowed
    split at allowed
    next given => cases allowed; exact ⟨rfl, given⟩
    next => cases allowed
  | accounts _ => cases allowed
  | _ => cases allowed

/-- Behind every stored token there is a browser that signed in as its user and then
approved, in this session, a request of its client for at least its scope. -/
theorem tokens_signedIn (executed : run (Service.step env curve host methods) (Service.initial db) events = some final)
    (fresh : Along (SignIn.step env curve host) SignInSessions.Fresh (SignIn.initial db) (leftOf events)) {token : OAuth2Token}
    (stored : token ∈ final.2.shared.tokens.rows) :
    ∃ first browser index session form payload second,
      events = first ++ .inr ⟨browser, index, .authorize session form payload⟩ :: second ∧
      ApprovesAs session form token.userId ∧ payload.clientId = token.clientId ∧
      scopeWords (some token.scope) ⊆ scopeWords payload.scope ∧
        SignedInAs env curve host db (leftOf first) browser token.userId := by
  have alone := (coupledSecond (SignIn.step env curve host)
    (Provider.step methods) Service.tell Service.read).run_trace trivial executed
  obtain ⟨⟨userId, payload⟩, approved, user, client, scope⟩ :=
    Consents.approved_of_permits alone (.inr (.inr ⟨token, stored, rfl⟩))
  cases (user : token.userId = userId)
  obtain ⟨first, event, second, state, rfl, partway, told | asked⟩ := coupled_occurred executed approved
  · obtain ⟨_, _, _, impossible, _⟩ := told
    cases impossible
  · obtain ⟨request, ⟨index, input⟩, rfl, allowed, session, form, rfl, signedIn, drawn, nonempty, approve⟩ := asked
    obtain ⟨same, given⟩ := read_authorize allowed
    have past : Along (SignIn.step env curve host) SignInSessions.Fresh (SignIn.initial db) (leftOf first) := by
      rw [leftOf, List.filterMap_append] at fresh
      exact (fresh.append (coupled_first partway)).1
    refine ⟨first, request.sender, index, session, form, payload, second, ?_, ⟨signedIn, drawn, nonempty, approve⟩, client.symm,
      scope, ?_⟩
    · rw [← same]
    · exact SessionOrigins.occurred_signedIn past (SessionOrigins.session_occurred (coupled_first partway) given signedIn)

end runs

/-- A browser registers with a wallet and approves a request, and the client redeems its code. -/
def registeredAndApproved : List Service.Event :=
  SignInSessions.registering.map .inl ++
    [.inr ⟨0, 0, .authorize { userId := some 7, loginNonce := some "n", csrfToken := some "csrf" } ⟨.approve,
      "csrf"⟩ Consents.asked⟩,
      .inr ⟨0, 0, .existsNonce⟩, .inr ⟨0, 0, .saveAuthorizationCode "code-1" 0⟩,
      .inr ⟨1, 1, .queryAuthorizationCode Consents.presented 0⟩,
      .inr ⟨1, 1, .saveToken ⟨"Bearer", "access-3", none, "openid profile", 300⟩ 0⟩]

/-- The browser has the k1 of the wallet's query on its page. -/
def shown : Service.State :=
  (run (Service.step {} (.answering (.ok true)) .ascii Consents.plainOnly) (Service.initial SignInSessions.noAccounts)
    (registeredAndApproved.take 2)).getD (Service.initial SignInSessions.noAccounts)

def registered : Service.State :=
  let signIn : SignIn.State := { SignInSessions.pageShown with db := SignInSessions.oneAccount }.emit
    ⟨SignInSessions.registration.k1, some 7⟩
  (signIn, (Provider.step Consents.plainOnly shown.2 (Service.tell signIn)).getD shown.2)

theorem shown_registers : Service.step {} (.answering (.ok true)) .ascii Consents.plainOnly shown
    (.inl (.callback SignInSessions.registration 0 7)) = some registered :=
  coupled_left.mpr ⟨SignInSessions.registration_emits, rfl⟩

theorem registered_token_signedIn :
    ∃ final, run (Service.step {} (.answering (.ok true)) .ascii Consents.plainOnly) (Service.initial SignInSessions.noAccounts)
        registeredAndApproved = some final ∧
      ∃ token ∈ final.2.shared.tokens.rows, token.accessToken = "access-3" ∧
        ∃ first browser index session form payload second,
          registeredAndApproved = first ++ .inr ⟨browser, index, .authorize session form payload⟩ :: second ∧
          ApprovesAs session form token.userId ∧ payload.clientId = token.clientId ∧
          scopeWords (some token.scope) ⊆ scopeWords payload.scope ∧
          SignedInAs {} (.answering (.ok true)) .ascii SignInSessions.noAccounts (leftOf first) browser token.userId := by
  have stored : ∃ final, run (Service.step {} (.answering (.ok true)) .ascii Consents.plainOnly)
      (Service.initial SignInSessions.noAccounts) (registeredAndApproved.take 2 ++ registeredAndApproved.drop 2) = some final ∧
      ∃ token ∈ final.2.shared.tokens.rows, token.accessToken = "access-3" := by
    refine ⟨_, run_append_some.mpr ⟨shown, rfl, run_cons_some.mpr ⟨registered, shown_registers, rfl⟩⟩, ?_⟩
    exact ⟨_, List.mem_cons_self, rfl⟩
  obtain ⟨final, executed, token, member, named⟩ := stored
  refine ⟨final, executed, token, member, named, tokens_signedIn executed ?_ member⟩
  refine .cons rfl ?_ (.cons rfl trivial (.cons SignInSessions.registration_emits trivial
    (.cons rfl trivial (.cons rfl trivial trivial))))
  exact List.forall_mem_nil _

end Satoidc.Proofs.SignedInConsents
