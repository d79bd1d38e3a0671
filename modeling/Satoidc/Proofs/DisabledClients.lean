import Satoidc.Proofs.Introspection
import Satoidc.Proofs.ClientManagement

/-! Clients that are disabled or deleted. The endpoints that authenticate a client do
not find it any more; UserInfo only looks at the token. -/

namespace Satoidc.Proofs.DisabledClients
open Foundation ClientService Introspection

def Available (clientId : String) (state : State) : Prop :=
  ∃ client ∈ state.clients.rows, client.clientId = clientId ∧ client.isClientDisabled = false

/-- Whatever the event answers is for a client that is registered and not disabled. -/
def ServesAvailable (env : Settings) (generator : BearerTokenGenerator) (state : State) (event : Event) : Prop :=
  ∀ clientId answer, (handle env generator state event).2 = some (clientId, answer) → Available clientId state

/-- The bearer validator accepts the access token of the row. -/
def Accepted (row : OAuth2Token) (now : Instant) : Prop :=
  (row.expiresIn = 0 ∨ now ≤ seconds (row.issuedAt + row.expiresIn)) ∧ row.accessTokenRevokedAt = 0 ∧
    row.refreshTokenRevokedAt = 0

/-- A UserInfo request that gets past the checks of its token carries a token of an
available client. -/
def Entitled (state : State) : Event → Prop
  | .userinfo token now =>
    ∀ row ∈ state.oauth.tokens.rows, row.accessToken = token → Accepted row now →
      "profile".toList ∈ splitWords row.scope.toList → (∃ user ∈ state.oauth.users.rows, user.id = row.userId) →
      Available row.clientId state
  | _ => True

section serves
variable {env : Settings} {generator : BearerTokenGenerator} {state : State} {clientId : String}

theorem queryClient_some {client : RegisteredClient} (found : queryClient clientId state = some client) :
    client.clientId = clientId ∧ Available clientId state := by
  obtain ⟨shown, enabled⟩ := Option.filter_eq_some_iff.mp found
  obtain ⟨member, same⟩ := mem_of_lookup shown
  exact ⟨same, client, member, same, by simpa using enabled⟩

theorem forClient_serves {respond : RegisteredClient → Option (OAuthDb × Answer)} {served : String} {answer : Answer}
    (answered : (forClient state clientId respond).2 = some (served, answer)) : Available served state := by
  unfold forClient at answered
  split at answered
  next => cases answered
  next client found =>
    split at answered
    next => cases answered
    next =>
      cases answered
      obtain ⟨same, available⟩ := queryClient_some found
      rw [same]
      exact available

theorem accepted_iff {row : OAuth2Token} {now : Instant} :
    (!row.isExpired now && !row.isRevoked) = true ↔ Accepted row now := by
  rw [Bool.and_eq_true, Bool.not_eq_true', OAuth2Token.isExpired_eq_false]
  simp [OAuth2Token.isRevoked, Accepted]

theorem authenticateToken_some {token : String} {now : Instant} {db : OAuthDb} {row : OAuth2Token} :
    authenticateToken token now db = some row ↔ row ∈ db.tokens.rows ∧ row.accessToken = token ∧ Accepted row now := by
  rw [authenticateToken, authenticateTokenBy, Option.filter_eq_some_iff, accepted_iff, lookup_some db.tokens.valid.accessToken,
    and_assoc]

theorem userinfo_some {token : String} {now : Instant} {db : OAuthDb} {row : OAuth2Token} {claims : UserInfo} :
    userinfo token now db = some (row, claims) ↔
      row ∈ db.tokens.rows ∧ row.accessToken = token ∧ Accepted row now ∧ "profile".toList ∈ splitWords row.scope.toList ∧
        ∃ user, authenticateUser row.userId db = some user ∧ claims = generateUserInfo user row.scope := by
  unfold userinfo
  constructor
  · intro released
    split at released
    next => cases released
    next stored authenticated =>
      split at released
      next => cases released
      next granted =>
        obtain ⟨user, known, same⟩ := Option.map_eq_some_iff.mp released
        cases same
        obtain ⟨member, carried, accepted⟩ := authenticateToken_some.mp authenticated
        exact ⟨member, carried, accepted, not_not.mp granted, user, known, rfl⟩
  · rintro ⟨member, carried, accepted, granted, user, known, rfl⟩
    simp only [authenticateToken_some.mpr ⟨member, carried, accepted⟩, granted, not_true_eq_false, if_false, known,
      Option.map_some]

theorem handle_userinfo {token : String} {now : Instant} {row : OAuth2Token} {claims : UserInfo}
    (released : userinfo token now state.oauth = some (row, claims)) :
    (handle env generator state (.userinfo token now)).2 = some (row.clientId, .userinfo claims) := by
  simp only [handle, released]

/-- Only UserInfo can serve a client that is not available. -/
theorem serves_iff (event : Event) : ServesAvailable env generator state event ↔ Entitled state event := by
  cases event with
  | setDisabled | delete => exact iff_of_true (fun _ _ answered => (by cases answered)) trivial
  | authorize | exchangeCode | refresh | introspect | revoke =>
    exact iff_of_true (fun _ _ answered => forClient_serves answered) trivial
  | userinfo token now =>
    constructor
    · intro serves row member carried accepted granted owned
      obtain ⟨user, inside, same⟩ := owned
      have known : authenticateUser row.userId state.oauth = some user :=
        (lookup_some state.oauth.users.valid.id).mpr ⟨inside, same⟩
      have released := userinfo_some.mpr ⟨member, carried, accepted, granted, user, known, rfl⟩
      exact serves row.clientId _ (handle_userinfo released)
    · intro entitled served answer answered
      cases released : userinfo token now state.oauth with
      | none => simp only [handle, released] at answered; cases answered
      | some result =>
        obtain ⟨row, claims⟩ := result
        cases (handle_userinfo released).symm.trans answered
        obtain ⟨member, carried, accepted, granted, user, known, -⟩ := userinfo_some.mp released
        exact entitled row member carried accepted granted ⟨user, mem_of_lookup known⟩

end serves

section withdrawn
variable {env : Settings} {generator : BearerTokenGenerator} {state next : State} {clientId : String}

def Registered (clientId : String) (state : State) : Prop := ∃ client ∈ state.clients.rows, client.clientId = clientId

theorem Available.registered (available : Available clientId state) : Registered clientId state := by
  obtain ⟨client, member, same, -⟩ := available
  exact ⟨client, member, same⟩

theorem forClient_clients {respond : RegisteredClient → Option (OAuthDb × Answer)} :
    (forClient state clientId respond).1.clients = state.clients := by
  unfold forClient
  split
  · rfl
  · split <;> rfl

/-- The rows of the clients after an event. -/
theorem handle_clients (event : Event) : (handle env generator state event).1.clients.rows =
    match event with
    | .setDisabled clientId disabled now =>
      update (fun client => client.clientId = clientId) (disabling disabled now) state.clients.rows
    | .delete clientId => state.clients.rows.filter fun client => client.clientId ≠ clientId
    | _ => state.clients.rows := by
  cases event with
  | setDisabled | delete => rfl
  | authorize | exchangeCode | refresh | introspect | revoke => exact congrArg Table.rows forClient_clients
  | userinfo token now =>
    simp only [handle]
    split <;> rfl

theorem disabling_disabled (now : Clock) (client : RegisteredClient) :
    (disabling true now client).isClientDisabled = true := by
  have written : (disabling true now client).clientMetadata =
      (client.clientMetadata.set .disabledAt (.int (unixSeconds now))).set .updatedAt (.int (unixSeconds now)) := rfl
  rw [RegisteredClient.isClientDisabled, written, Dict.get_set_other (by decide), Dict.get_set_self]
  exact ClientManagement.clock_truthy

theorem mem_handle {event : Event} {client : RegisteredClient}
    (member : client ∈ (handle env generator state event).1.clients.rows) :
    client ∈ state.clients.rows ∨ ∃ old ∈ state.clients.rows, ∃ disabled now,
      event = .setDisabled old.clientId disabled now ∧ client = disabling disabled now old := by
  rw [handle_clients] at member
  split at member
  next changed disabled now =>
    obtain ⟨old, stored, same⟩ := mem_update.mp member
    split at same
    next hit =>
      subst same
      exact .inr ⟨old, stored, disabled, now, by rw [hit], rfl⟩
    next => exact .inl (same ▸ stored)
  next => exact .inl (List.mem_filter.mp member).1
  next => exact .inl member

theorem registered_step {event : Event} (taken : step env generator state event = some next)
    (registered : Registered clientId next) : Registered clientId state := by
  cases taken
  obtain ⟨client, member, same⟩ := registered
  rcases mem_handle member with stored | ⟨old, stored, disabled, now, -, rfl⟩
  · exact ⟨client, stored, same⟩
  · exact ⟨old, stored, same⟩

theorem available_step {event : Event} (taken : step env generator state event = some next)
    (other : ∀ now, event ≠ .setDisabled clientId false now) (available : Available clientId next) :
    Available clientId state := by
  cases taken
  obtain ⟨client, member, same, enabled⟩ := available
  rcases mem_handle member with stored | ⟨old, stored, disabled, now, rfl, rfl⟩
  · exact ⟨client, stored, same, enabled⟩
  · cases disabled with
    | true =>
      rw [disabling_disabled] at enabled
      cases enabled
    | false => exact absurd (by rw [← same]; rfl) (other now)

theorem setDisabled_withdraws {now : Clock} (taken : step env generator state (.setDisabled clientId true now) = some next) :
    ¬ Available clientId next := by
  cases taken
  rintro ⟨client, member, same, enabled⟩
  obtain ⟨old, -, written⟩ := mem_update.mp member
  split at written
  next =>
    subst written
    rw [disabling_disabled] at enabled
    cases enabled
  next missed => exact missed (by rw [written, same])

theorem delete_withdraws (taken : step env generator state (.delete clientId) = some next) : ¬ Registered clientId next := by
  cases taken
  rintro ⟨client, member, same⟩
  simpa [same] using (List.mem_filter.mp member).2

end withdrawn

section runs
variable {env : Settings} {generator : BearerTokenGenerator} {start reached : State} {events : List Event} {clientId : String}

theorem unavailable_run (enables : ∀ now, .setDisabled clientId false now ∉ events) (withdrawn : ¬ Available clientId start)
    (executed : run (step env generator) start events = some reached) : ¬ Available clientId reached := by
  induction events generalizing start with
  | nil => cases executed; exact withdrawn
  | cons event events ih =>
    obtain ⟨next, taken, rest⟩ := run_cons_some.mp executed
    refine ih (fun now member => enables now (List.mem_cons_of_mem _ member)) ?_ rest
    intro available
    refine withdrawn (available_step taken ?_ available)
    rintro now rfl
    exact enables now List.mem_cons_self

theorem unregistered_run (withdrawn : ¬ Registered clientId start)
    (executed : run (step env generator) start events = some reached) : ¬ Registered clientId reached :=
  run_invariant (fun state => ¬ Registered clientId state)
    (fun _ _ _ missing taken registered => missing (registered_step taken registered)) withdrawn executed

end runs

/-- From the disabling of a client to its next enabling, and for ever after its deletion. -/
def Withdrawn (clientId : String) (events : List Event) : Prop :=
  ∃ first event middle, events = first ++ event :: middle ∧
    ((∃ now, event = .setDisabled clientId true now) ∧ (∀ now, .setDisabled clientId false now ∉ middle) ∨
      event = .delete clientId)

theorem withdrawn_unavailable {env : Settings} {generator : BearerTokenGenerator} {start reached : State}
    {events : List Event} {clientId : String} (withdrawn : Withdrawn clientId events)
    (executed : run (step env generator) start events = some reached) : ¬ Available clientId reached := by
  obtain ⟨first, event, middle, rfl, withdraws⟩ := withdrawn
  obtain ⟨before, -, rest⟩ := run_append_some.mp executed
  obtain ⟨after, taken, remaining⟩ := run_cons_some.mp rest
  rcases withdraws with ⟨⟨now, rfl⟩, enables⟩ | rfl
  · exact unavailable_run enables (setDisabled_withdraws taken) remaining
  · exact fun available => unregistered_run (delete_withdraws taken) remaining available.registered

/-- A run answers for available clients only, exactly when its UserInfo requests do; and
clients that the run has disabled or deleted are not available. -/
theorem disabled_unserved_iff (env : Settings) (generator : BearerTokenGenerator) (start : State) (events : List Event) :
    ((∀ first event second state, events = first ++ event :: second → run (step env generator) start first = some state →
        ServesAvailable env generator state event) ↔
      Along (step env generator) Entitled start events) ∧
      ∀ first second state clientId, events = first ++ second → run (step env generator) start first = some state →
        Withdrawn clientId first → ¬ Available clientId state := by
  constructor
  · rw [along_iff]
    simp only [serves_iff]
  · intro first second state clientId _ partway withdrawn
    exact withdrawn_unavailable withdrawn partway

def app : RegisteredClient where
  id := 1
  userId := 1
  clientId := "app"
  clientIdIssuedAt := 0
  clientSecret := "s"
  clientMetadata := Dict.empty

/-- The user has signed in, and the client's access token is good. -/
def signedIn : State where
  clients := ⟨[app], by decide⟩
  oauth :=
    { users := issuedDb.users
      codes := issuedDb.codes
      tokens := ⟨[{ issuedToken with scope := "openid profile" }], by decide⟩ }

def noGenerator : BearerTokenGenerator := ⟨none, none, fun _ => 300⟩

/-- UserInfo is asked while the client is enabled, and again for the token once it has expired. -/
def beforeAndAfter : List Event :=
  [.introspect "app" "a1" none 0, .userinfo "a1" 1000000, .setDisabled "app" true ⟨5000000, by decide⟩,
    .introspect "app" "a1" none 6000000, .userinfo "a1" 300000001]

theorem enabled_client_served : ∀ first event second state, beforeAndAfter = first ++ event :: second →
    run (step {} noGenerator) signedIn first = some state → ServesAvailable {} noGenerator state event := by
  refine (disabled_unserved_iff {} noGenerator signedIn beforeAndAfter).1.mpr ?_
  refine .cons rfl trivial (.cons rfl ?_ (.cons rfl trivial (.cons rfl trivial (.cons rfl ?_ trivial))))
  · intro row member _ _ _ _
    cases List.mem_singleton.mp member
    exact ⟨app, List.mem_singleton.mpr rfl, rfl, rfl⟩
  · intro row member _ accepted
    cases List.mem_singleton.mp member
    exact absurd accepted.1 (by decide)

def appDisabled : State := setDisabled "app" true ⟨5000000, by decide⟩ signedIn

theorem disabled_client_claims :
    run (step {} noGenerator) signedIn [.setDisabled "app" true ⟨5000000, by decide⟩] = some appDisabled ∧
      ¬ Available "app" appDisabled ∧ ¬ ServesAvailable {} noGenerator appDisabled (.userinfo "a1" 6000000) := by
  have disabled : step {} noGenerator signedIn (.setDisabled "app" true ⟨5000000, by decide⟩) = some appDisabled := rfl
  refine ⟨rfl, setDisabled_withdraws disabled, ?_⟩
  intro serves
  have granted : "profile".toList ∈ splitWords "openid profile".toList := by decide
  have released : userinfo "a1" 6000000 appDisabled.oauth =
      some ({ issuedToken with scope := "openid profile" }, generateUserInfo (walletUser 7 "02") "openid profile") :=
    userinfo_some.mpr ⟨List.mem_singleton.mpr rfl, rfl, ⟨.inr (by decide), rfl, rfl⟩, granted, _, rfl, rfl⟩
  exact setDisabled_withdraws disabled (serves "app" _ (handle_userinfo released))

end Satoidc.Proofs.DisabledClients
