import Satoidc.Clients

/-! What the actions of the developer dashboard do to a client. Each either raises
before it has assigned anything, or rewrites the metadata and with it keeps the
secret in step with the authentication method. -/

namespace Satoidc.Proofs.ClientManagement
open Foundation RegisteredClient ClientPages

/-- The values of the dictionary that `build_client_metadata` returns. -/
def builtValue (built : ClientMetadata) : MetadataKey → Option MetadataValue
  | .clientName => some (.str built.clientName)
  | .clientUri => some (.str built.clientUri)
  | .grantTypes => some (.list built.grantTypes)
  | .redirectUris => some (.list built.redirectUris)
  | .responseTypes => some (.list built.responseTypes)
  | .scope => some (.str built.scope)
  | .tokenEndpointAuthMethod => some (.str built.tokenEndpointAuthMethod)
  | .disabledAt | .updatedAt | .clientSecretRotatedAt => none

theorem get_dict (built : ClientMetadata) (key : MetadataKey) : built.dict.get key = builtValue built key := by
  cases key <;> simp [ClientMetadata.dict, Dict.setAll, Dict.get_set, builtValue]

theorem buildClientMetadata_ok {nfkc : String → String} {form : ClientForm} {built : ClientMetadata}
    (accepted : buildClientMetadata nfkc form = .ok built) : built.tokenEndpointAuthMethod = form.authMethod := by
  simp only [buildClientMetadata] at accepted
  cases errors : form.errors nfkc with
  | error raised => rw [errors] at accepted; cases accepted
  | ok messages =>
    simp only [errors, Bind.bind, Except.bind] at accepted
    split at accepted
    · cases accepted
    · cases accepted; rfl

theorem authMethod_none (form : ClientForm) : form.authMethod = "none" ↔ form.tokenEndpointAuthMethod = some "none" := by
  unfold ClientForm.authMethod orElse
  cases form.tokenEndpointAuthMethod with
  | none => simp
  | some method =>
    simp only [Option.some.injEq]
    split
    next empty => simp [empty]
    next => exact Iff.rfl

def edited (client : RegisteredClient) (built : ClientMetadata) (now : Clock) : RegisteredClient :=
  { client with
    clientMetadata :=
      (keepKey client.clientMetadata (keepKey client.clientMetadata built.dict .disabledAt) .clientSecretRotatedAt).set
        .updatedAt (.int (unixSeconds now)) }

def rotated (client : RegisteredClient) (secret : Secret) (now : Clock) : RegisteredClient :=
  { client with
    clientSecret := secret.val
    clientMetadata :=
      (client.clientMetadata.set .clientSecretRotatedAt (.int (unixSeconds now))).set .updatedAt (.int (unixSeconds now)) }

def toggled (client : RegisteredClient) (now : Clock) : RegisteredClient :=
  { client with
    clientMetadata :=
      (if !client.isClientDisabled then client.clientMetadata.set .disabledAt (.int (unixSeconds now))
        else client.clientMetadata.pop .disabledAt).set .updatedAt (.int (unixSeconds now)) }

/-- The actions that reach their commit, with the client as they leave it. -/
inductive Performed (nfkc : String → String) (client : RegisteredClient) : ClientAction → RegisteredClient → Prop where
  | publishes {form built secret now rotatedAt} (accepted : buildClientMetadata nfkc form = .ok built)
      (published : built.tokenEndpointAuthMethod = "none") :
      Performed nfkc client (.edit form secret now rotatedAt) { edited client built now with clientSecret := "" }
  | issues {form built secret now rotatedAt} (accepted : buildClientMetadata nfkc form = .ok built)
      (confidential : built.tokenEndpointAuthMethod ≠ "none") (missing : client.clientSecret = "") :
      Performed nfkc client (.edit form secret now rotatedAt) (rotated (edited client built now) secret rotatedAt)
  | edits {form built secret now rotatedAt} (accepted : buildClientMetadata nfkc form = .ok built)
      (confidential : built.tokenEndpointAuthMethod ≠ "none") (kept : client.clientSecret ≠ "") :
      Performed nfkc client (.edit form secret now rotatedAt) (edited client built now)
  | rotates {secret now} (confidential : ¬ client.isPublic) :
      Performed nfkc client (.rotate secret now) (rotated client secret now)
  | toggles {now} : Performed nfkc client (.toggle now) (toggled client now)

section get
variable {client : RegisteredClient} {built : ClientMetadata} {now : Clock} {secret : Secret}

theorem get_keepKey {current next : Metadata} {kept key : MetadataKey} :
    (keepKey current next kept).get key =
      if key = kept ∧ MetadataValue.truthy (current.get kept) then current.get kept else next.get key := by
  unfold keepKey
  cases found : current.get kept with
  | none => simp [MetadataValue.truthy]
  | some value =>
    by_cases truthy : MetadataValue.truthy (some value) = true
    · simp [truthy, Dict.get_set]
    · simp [truthy]

theorem get_edited_form {key : MetadataKey} (value : builtValue built key ≠ none) :
    (edited client built now).clientMetadata.get key = builtValue built key := by
  cases key <;> first | exact absurd rfl value | simp [edited, Dict.get_set, get_keepKey, get_dict]

theorem edited_isPublic : (edited client built now).isPublic ↔ built.tokenEndpointAuthMethod = "none" := by
  rw [isPublic, get_edited_form (by simp [builtValue])]
  simp [builtValue]

end get

section run
variable {nfkc : String → String} {client : RegisteredClient} {secret : Secret} {now : Clock} {form : ClientForm}

theorem rotateClientSecret_run : (rotateClientSecret secret now).run client =
    if client.isPublic then
      (.error (.clientMetadataValidationError ["Public clients do not have a secret to rotate."]), client)
    else (.ok secret.val, rotated client secret now) := by
  unfold isPublic rotateClientSecret
  by_cases published : client.clientMetadata.get .tokenEndpointAuthMethod = some (.str "none")
  · simp [published, run_bind]
  · simp [published, run_bind, setClientMetadata]
    rfl

theorem updateClientMetadata_run : (updateClientMetadata nfkc form now).run client =
    match buildClientMetadata nfkc form with
    | .error raised => (.error raised, client)
    | .ok built => (.ok (edited client built now).clientMetadata, edited client built now) := by
  cases accepted : buildClientMetadata nfkc form with
  | error raised => simp [updateClientMetadata, run_bind, accepted]; rfl
  | ok built => simp [updateClientMetadata, run_bind, accepted]; rfl

theorem save_error {rotatedAt : Clock} {raised : FormError} (refused : buildClientMetadata nfkc form = .error raised) :
    (save nfkc form secret now rotatedAt).run client = (.error raised, client) := by
  rw [save, run_bind, updateClientMetadata_run, refused]

theorem save_ok {rotatedAt : Clock} {built : ClientMetadata} (accepted : buildClientMetadata nfkc form = .ok built) :
    (save nfkc form secret now rotatedAt).run client =
      (.ok (),
        if built.tokenEndpointAuthMethod = "none" then { edited client built now with clientSecret := "" }
        else if client.clientSecret = "" then rotated (edited client built now) secret rotatedAt
        else edited client built now) := by
  have unchanged : (edited client built now).clientSecret = client.clientSecret := rfl
  have method : (edited client built now).clientMetadata.get .tokenEndpointAuthMethod = some (.str "none") ↔
      built.tokenEndpointAuthMethod = "none" := edited_isPublic
  rw [save, run_bind, updateClientMetadata_run, accepted]
  simp only [method]
  by_cases published : built.tokenEndpointAuthMethod = "none"
  · simp [published]
  · by_cases missing : client.clientSecret = ""
    · simp [published, missing, run_bind, run_discard, unchanged, rotateClientSecret_run, edited_isPublic]
    · simp [published, missing, run_bind, unchanged]

end run

/-- An action raises before it has assigned anything, or ends in one of five ways. -/
theorem perform_cases (nfkc : String → String) (client : RegisteredClient) (action : ClientAction) :
    (∃ raised, (action.perform nfkc).run client = (.error raised, client)) ∨
      ∃ after, (action.perform nfkc).run client = (.ok (), after) ∧ Performed nfkc client action after := by
  cases action with
  | toggle now => exact .inr ⟨toggled client now, rfl, .toggles⟩
  | rotate secret now =>
    rw [ClientAction.perform, run_discard, rotateClientSecret_run]
    by_cases published : client.isPublic
    · rw [if_pos published]
      exact .inl ⟨_, rfl⟩
    · rw [if_neg published]
      exact .inr ⟨_, rfl, .rotates published⟩
  | edit form secret now rotatedAt =>
    cases accepted : buildClientMetadata nfkc form with
    | error raised => exact .inl ⟨raised, save_error accepted⟩
    | ok built =>
      refine .inr ⟨_, save_ok accepted, ?_⟩
      split
      next published => exact .publishes accepted published
      next confidential =>
        split
        next missing => exact .issues accepted confidential missing
        next kept => exact .edits accepted confidential kept

/-- Only the secret and the metadata ever change. -/
theorem Performed.columns {nfkc : String → String} {client after : RegisteredClient} {action : ClientAction}
    (performed : Performed nfkc client action after) :
    after = { client with clientSecret := after.clientSecret, clientMetadata := after.clientMetadata } := by
  cases performed <;> rfl

theorem Performed.flush_current {nfkc : String → String} {client after : RegisteredClient} {action : ClientAction}
    (performed : Performed nfkc client action after) : client.flush after client = after := by
  rw [performed.columns]
  simp [flush]

/-- A management key that is present holds a time other than 0. -/
def Stamped (client : RegisteredClient) (key : MetadataKey) : Prop :=
  ∀ value, client.clientMetadata.get key = some value → MetadataValue.truthy (some value) = true

structure Managed (client : RegisteredClient) : Prop where
  secret : client.clientSecret = "" ↔ client.isPublic
  disabledAt : Stamped client .disabledAt
  rotatedAt : Stamped client .clientSecretRotatedAt

section managed
variable {nfkc : String → String} {client after : RegisteredClient} {built : ClientMetadata} {now : Clock} {secret : Secret}

theorem Stamped.keepKey {key : MetadataKey} {next : Metadata} (stamped : Stamped client key) (absent : next.get key = none) :
    (keepKey client.clientMetadata next key).get key = client.clientMetadata.get key := by
  rw [get_keepKey]
  cases found : client.clientMetadata.get key with
  | none => simpa [MetadataValue.truthy] using absent
  | some value => simp [stamped value found]

theorem get_edited_disabledAt (stamped : Stamped client .disabledAt) :
    (edited client built now).clientMetadata.get .disabledAt = client.clientMetadata.get .disabledAt := by
  have kept := stamped.keepKey (get_dict built .disabledAt)
  simp only [edited, Dict.get_set, reduceCtorEq, if_false]
  rw [get_keepKey]
  simpa using kept

theorem get_edited_rotatedAt (stamped : Stamped client .clientSecretRotatedAt) :
    (edited client built now).clientMetadata.get .clientSecretRotatedAt =
      client.clientMetadata.get .clientSecretRotatedAt := by
  simp only [edited, Dict.get_set, reduceCtorEq, if_false]
  refine stamped.keepKey ?_
  rw [get_keepKey, get_dict]
  simp [builtValue]

theorem get_rotated {key : MetadataKey} (other : key ≠ .clientSecretRotatedAt) (another : key ≠ .updatedAt) :
    (rotated client secret now).clientMetadata.get key = client.clientMetadata.get key := by
  simp [rotated, Dict.get_set, other, another]

theorem get_rotated_rotatedAt :
    (rotated client secret now).clientMetadata.get .clientSecretRotatedAt = some (.int (unixSeconds now)) := by
  simp [rotated, Dict.get_set]

theorem rotated_isPublic : (rotated client secret now).isPublic ↔ client.isPublic := by
  unfold isPublic
  rw [get_rotated (by decide) (by decide)]

theorem get_toggled {key : MetadataKey} (other : key ≠ .disabledAt) (another : key ≠ .updatedAt) :
    (toggled client now).clientMetadata.get key = client.clientMetadata.get key := by
  simp only [toggled, Dict.get_set, if_neg another]
  split
  · rw [Dict.get_set_other other]
  · rw [Dict.get_pop, if_neg other]

theorem toggled_isPublic : (toggled client now).isPublic ↔ client.isPublic := by
  unfold isPublic
  rw [get_toggled (by decide) (by decide)]

theorem clock_truthy : MetadataValue.truthy (some (.int (unixSeconds now))) = true := by
  simpa [MetadataValue.truthy] using now.property

theorem toggled_stamped : Stamped (toggled client now) .disabledAt := by
  intro value shown
  simp only [toggled, Dict.get_set, reduceCtorEq, if_false] at shown
  split at shown
  next =>
    cases Dict.get_set_self.symm.trans shown
    exact clock_truthy
  next =>
    rw [Dict.get_pop, if_pos rfl] at shown
    cases shown

/-- An action that reaches its commit keeps the secret in step with the
authentication method. -/
theorem Performed.managed {action : ClientAction} (performed : Performed nfkc client action after) (managed : Managed client) :
    Managed after := by
  obtain ⟨inStep, disabledAt, rotatedAt⟩ := managed
  cases performed with
  | @publishes form built secret now rotatedAt' accepted published =>
    have open' : (edited client built now).isPublic := edited_isPublic.mpr published
    refine ⟨iff_of_true rfl open', ?_, ?_⟩
    · intro value shown
      exact disabledAt value ((get_edited_disabledAt disabledAt).symm.trans shown)
    · intro value shown
      exact rotatedAt value ((get_edited_rotatedAt rotatedAt).symm.trans shown)
  | @issues form built secret now rotatedAt' accepted confidential missing =>
    refine ⟨iff_of_false secret.property ?_, ?_, ?_⟩
    · rw [rotated_isPublic, edited_isPublic]
      exact confidential
    · intro value shown
      rw [get_rotated (by decide) (by decide), get_edited_disabledAt disabledAt] at shown
      exact disabledAt value shown
    · intro value shown
      cases get_rotated_rotatedAt.symm.trans shown
      exact clock_truthy
  | edits accepted confidential kept =>
    refine ⟨iff_of_false kept fun open' => confidential (edited_isPublic.mp open'), ?_, ?_⟩
    · intro value shown
      exact disabledAt value ((get_edited_disabledAt disabledAt).symm.trans shown)
    · intro value shown
      exact rotatedAt value ((get_edited_rotatedAt rotatedAt).symm.trans shown)
  | @rotates secret now confidential =>
    refine ⟨iff_of_false secret.property (rotated_isPublic.not.mpr confidential), ?_, ?_⟩
    · intro value shown
      rw [get_rotated (by decide) (by decide)] at shown
      exact disabledAt value shown
    · intro value shown
      cases get_rotated_rotatedAt.symm.trans shown
      exact clock_truthy
  | toggles =>
    refine ⟨inStep.trans toggled_isPublic.symm, toggled_stamped, ?_⟩
    intro value shown
    rw [get_toggled (by decide) (by decide)] at shown
    exact rotatedAt value shown

theorem created_managed {form : ClientForm} {id : Nat} {userId : UserId} {clientId : String} {drawn : Secret} {now : Instant}
    (created : createClient nfkc form id userId clientId drawn now = .ok client) : Managed client := by
  simp only [createClient] at created
  cases accepted : buildClientMetadata nfkc form with
  | error raised => rw [accepted] at created; cases created
  | ok built =>
    rw [accepted] at created
    cases created
    have method := buildClientMetadata_ok accepted
    refine ⟨?_, ?_, ?_⟩
    · rw [isPublic, get_dict, builtValue, Option.some.injEq, MetadataValue.str.injEq, method, authMethod_none]
      by_cases published : form.tokenEndpointAuthMethod = some "none"
      · simp [published]
      · simp [published, drawn.property]
    · intro value shown
      cases (get_dict built .disabledAt).symm.trans shown
    · intro value shown
      cases (get_dict built .clientSecretRotatedAt).symm.trans shown

/-- The row that the submit of the create page inserts is the one created here. -/
theorem submit_registered {form : ClientForm} {state next : Pages.State} {userId : UserId} {clientId : String} {drawn : Secret}
    (accepted : buildClientMetadata nfkc form = .ok built)
    (submitted : Pages.submit state userId built clientId drawn.val = some next) :
    ∃ row, next.clients.rows = state.clients.rows ++ [row] ∧
      createClient nfkc form row.id userId clientId drawn state.now = .ok row.registered := by
  obtain ⟨clients, stored, rfl⟩ := Option.map_eq_some_iff.mp submitted
  refine ⟨_, Table.store_some.mp stored, ?_⟩
  have method := buildClientMetadata_ok accepted
  have same : built.tokenEndpointAuthMethod ≠ "none" ↔ form.tokenEndpointAuthMethod ≠ some "none" := by
    rw [method, Ne, authMethod_none]
  simp only [createClient, accepted, OAuth2Client.registered, same]
  rfl

theorem disabled_of_get (same : after.clientMetadata.get .disabledAt = client.clientMetadata.get .disabledAt) :
    after.isClientDisabled = client.isClientDisabled := by
  rw [isClientDisabled, isClientDisabled, same]

/-- What an edit makes of the metadata its form builds, what it keeps, and what it does
to the secret, which it draws only for a client that stops being public. -/
structure Edit (before : RegisteredClient) (built : ClientMetadata) (secret : Secret) (after : RegisteredClient) : Prop where
  form : ∀ key, builtValue built key ≠ none → after.clientMetadata.get key = builtValue built key
  method : after.isPublic ↔ built.tokenEndpointAuthMethod = "none"
  disabledAt : after.clientMetadata.get .disabledAt = before.clientMetadata.get .disabledAt
  rotatedAt : ¬ (before.isPublic ∧ built.tokenEndpointAuthMethod ≠ "none") →
    after.clientMetadata.get .clientSecretRotatedAt = before.clientMetadata.get .clientSecretRotatedAt
  keeps : ¬ before.isPublic → built.tokenEndpointAuthMethod ≠ "none" → after.clientSecret = before.clientSecret
  clears : built.tokenEndpointAuthMethod = "none" → after.clientSecret = ""
  draws : before.isPublic → built.tokenEndpointAuthMethod ≠ "none" →
    after.clientSecret = secret.val ∧ after.clientSecret ≠ ""

/-- What the other two actions change, next to the time of the update. -/
structure Rotation (before : RegisteredClient) (secret : Secret) (now : Clock) (after : RegisteredClient) : Prop where
  secret : after.clientSecret = secret.val
  rotatedAt : after.clientMetadata.get .clientSecretRotatedAt = some (.int (unixSeconds now))
  others : ∀ key, key ≠ .clientSecretRotatedAt → key ≠ .updatedAt → after.clientMetadata.get key = before.clientMetadata.get key

structure Toggle (before after : RegisteredClient) : Prop where
  flips : after.isClientDisabled = !before.isClientDisabled
  secret : after.clientSecret = before.clientSecret
  others : ∀ key, key ≠ .disabledAt → key ≠ .updatedAt → after.clientMetadata.get key = before.clientMetadata.get key

theorem rotated_form {key : MetadataKey} (value : builtValue built key ≠ none) :
    (rotated client secret now).clientMetadata.get key = client.clientMetadata.get key := by
  apply get_rotated
  · rintro rfl
    exact value rfl
  · rintro rfl
    exact value rfl

theorem Performed.edit {form : ClientForm} {now rotatedAt : Clock}
    (performed : Performed nfkc client (.edit form secret now rotatedAt) after)
    (accepted : buildClientMetadata nfkc form = .ok built) (managed : Managed client) : Edit client built secret after := by
  cases performed with
  | publishes stated published =>
    cases stated.symm.trans accepted
    exact
      { form := fun _ value => get_edited_form value
        method := edited_isPublic
        disabledAt := get_edited_disabledAt managed.disabledAt
        rotatedAt := fun _ => get_edited_rotatedAt managed.rotatedAt
        keeps := fun _ confidential => absurd published confidential
        clears := fun _ => rfl
        draws := fun _ confidential => absurd published confidential }
  | issues stated confidential missing =>
    cases stated.symm.trans accepted
    have wasPublic : client.isPublic := managed.secret.mp missing
    exact
      { form := fun _ value => (rotated_form value).trans (get_edited_form value)
        method := rotated_isPublic.trans edited_isPublic
        disabledAt := (get_rotated (by decide) (by decide)).trans (get_edited_disabledAt managed.disabledAt)
        rotatedAt := fun silent => absurd ⟨wasPublic, confidential⟩ silent
        keeps := fun wasConfidential _ => absurd wasPublic wasConfidential
        clears := fun published => absurd published confidential
        draws := fun _ _ => ⟨rfl, secret.property⟩ }
  | edits stated confidential kept =>
    cases stated.symm.trans accepted
    have wasConfidential : ¬ client.isPublic := fun wasPublic => kept (managed.secret.mpr wasPublic)
    exact
      { form := fun _ value => get_edited_form value
        method := edited_isPublic
        disabledAt := get_edited_disabledAt managed.disabledAt
        rotatedAt := fun _ => get_edited_rotatedAt managed.rotatedAt
        keeps := fun _ _ => rfl
        clears := fun published => absurd published confidential
        draws := fun wasPublic _ => absurd wasPublic wasConfidential }

theorem rotated_rotation : Rotation client secret now (rotated client secret now) where
  secret := rfl
  rotatedAt := get_rotated_rotatedAt
  others _ := get_rotated

theorem toggled_disabled : (toggled client now).isClientDisabled = !client.isClientDisabled := by
  have shown : (toggled client now).clientMetadata.get .disabledAt =
      if !client.isClientDisabled then some (.int (unixSeconds now)) else none := by
    simp only [toggled, Dict.get_set, reduceCtorEq, if_false]
    split
    · rw [Dict.get_set_self]
    · rw [Dict.get_pop, if_pos rfl]
  rw [isClientDisabled, shown]
  cases client.isClientDisabled with
  | false => exact clock_truthy
  | true => rfl

theorem toggled_toggle : Toggle client (toggled client now) where
  flips := toggled_disabled
  secret := rfl
  others _ := get_toggled

/-- The account of one action on the stored client. An edit writes what its form builds,
and nothing if the form is refused; only a toggle changes whether the client is disabled. -/
structure Account (nfkc : String → String) (before : RegisteredClient) (action : ClientAction) (after : RegisteredClient) :
    Prop where
  identity : after.id = before.id ∧ after.userId = before.userId ∧ after.clientId = before.clientId ∧
    after.clientIdIssuedAt = before.clientIdIssuedAt
  disabled : after.isClientDisabled = before.isClientDisabled ∨ ∃ now, action = .toggle now
  edit : ∀ form secret now rotatedAt built, action = .edit form secret now rotatedAt →
    buildClientMetadata nfkc form = .ok built → built.tokenEndpointAuthMethod = form.authMethod ∧ Edit before built secret after
  refused : ∀ form secret now rotatedAt raised, action = .edit form secret now rotatedAt →
    buildClientMetadata nfkc form = .error raised → (action.perform nfkc).run before = (.error raised, before) ∧ after = before
  rotate : ∀ secret now, action = .rotate secret now →
    if before.isPublic then after = before else Rotation before secret now after
  toggle : ∀ now, action = .toggle now → Toggle before after
  raises : ∀ raised object, (action.perform nfkc).run before = (.error raised, object) → object = before ∧ after = before

theorem manage_some {action : ClientAction} {before : RegisteredClient} :
    manage nfkc before action = some after ↔
      (∃ raised, (action.perform nfkc).run before = (.error raised, before) ∧ after = before) ∨
        (action.perform nfkc).run before = (.ok (), after) ∧ Performed nfkc before action after := by
  simp only [manage, act, Option.some.injEq]
  rcases perform_cases nfkc before action with ⟨raised, refused⟩ | ⟨result, done, performed⟩
  · rw [refused]
    constructor
    · rintro rfl
      exact .inl ⟨raised, rfl, rfl⟩
    · rintro (⟨_, -, rfl⟩ | ⟨impossible, -⟩)
      · rfl
      · cases impossible
  · rw [done]
    simp only [performed.flush_current]
    constructor
    · rintro rfl
      exact .inr ⟨rfl, performed⟩
    · rintro (⟨_, impossible, -⟩ | ⟨same, -⟩)
      · cases impossible
      · cases same; rfl

theorem manage_managed {action : ClientAction} {before : RegisteredClient} (taken : manage nfkc before action = some after)
    (managed : Managed before) : Managed after := by
  rcases manage_some.mp taken with ⟨raised, -, rfl⟩ | ⟨-, performed⟩
  · exact managed
  · exact performed.managed managed

theorem perform_edit {form : ClientForm} {now rotatedAt : Clock} (accepted : buildClientMetadata nfkc form = .ok built) :
    ∃ done, ((ClientAction.edit form secret now rotatedAt).perform nfkc).run client = (.ok (), done) :=
  ⟨_, save_ok accepted⟩

theorem Performed.disabled {action : ClientAction} (performed : Performed nfkc client action after) (managed : Managed client) :
    after.isClientDisabled = client.isClientDisabled ∨ ∃ now, action = .toggle now := by
  cases performed with
  | toggles => exact .inr ⟨_, rfl⟩
  | rotates => exact .inl (disabled_of_get (get_rotated (by decide) (by decide)))
  | publishes => exact .inl (disabled_of_get (get_edited_disabledAt managed.disabledAt))
  | issues =>
    exact .inl (disabled_of_get ((get_rotated (by decide) (by decide)).trans (get_edited_disabledAt managed.disabledAt)))
  | edits => exact .inl (disabled_of_get (get_edited_disabledAt managed.disabledAt))

/-- An action that raises has left the client alone: it was not a toggle, and if it was
an edit its form was refused. -/
theorem raised_account {action : ClientAction} {raised : FormError}
    (failed : (action.perform nfkc).run client = (.error raised, client)) : Account nfkc client action client := by
  refine ⟨⟨rfl, rfl, rfl, rfl⟩, .inl rfl, ?_, ?_, ?_, ?_, ?_⟩
  · rintro form secret now rotatedAt built rfl accepted
    obtain ⟨done, saved⟩ := perform_edit accepted
    cases failed.symm.trans saved
  · rintro form secret now rotatedAt error rfl refused
    exact ⟨save_error refused, rfl⟩
  · rintro secret now rfl
    rw [ClientAction.perform, run_discard, rotateClientSecret_run] at failed
    by_cases published : client.isPublic
    · rw [if_pos published]
    · rw [if_neg published] at failed
      cases failed
  · rintro now rfl
    have saved : ((ClientAction.toggle now).perform nfkc).run client = (.ok (), toggled client now) := rfl
    cases failed.symm.trans saved
  · intro error object same
    cases failed.symm.trans same
    exact ⟨rfl, rfl⟩

theorem Performed.account {action : ClientAction} (done : (action.perform nfkc).run client = (.ok (), after))
    (performed : Performed nfkc client action after) (managed : Managed client) : Account nfkc client action after := by
  refine ⟨?_, performed.disabled managed, ?_, ?_, ?_, ?_, ?_⟩
  · rw [performed.columns]
    exact ⟨rfl, rfl, rfl, rfl⟩
  · rintro form secret now rotatedAt built rfl accepted
    exact ⟨buildClientMetadata_ok accepted, performed.edit accepted managed⟩
  · rintro form secret now rotatedAt raised rfl refused
    cases done.symm.trans (save_error refused)
  · rintro secret now rfl
    cases performed with
    | rotates confidential =>
      rw [if_neg confidential]
      exact rotated_rotation
  · rintro now rfl
    cases performed with
    | toggles => exact toggled_toggle
  · intro raised object failed
    cases done.symm.trans failed

theorem manage_account {action : ClientAction} {before : RegisteredClient} (taken : manage nfkc before action = some after)
    (managed : Managed before) : Account nfkc before action after := by
  rcases manage_some.mp taken with ⟨raised, failed, rfl⟩ | ⟨done, performed⟩
  · exact raised_account failed
  · exact performed.account done managed

end managed

/-- From its creation on, a client has an empty secret exactly when it is public, and
every action keeps to its account. -/
theorem client_managed (nfkc : String → String) (form : ClientForm) (id : Nat) (userId : UserId) (clientId : String)
    (drawn : Secret) (now : Instant) (client : RegisteredClient)
    (created : createClient nfkc form id userId clientId drawn now = .ok client) (actions : List ClientAction)
    (final : RegisteredClient) (executed : run (manage nfkc) client actions = some final) :
    (final.clientSecret = "" ↔ final.isPublic) ∧
      ∀ first action second before after, actions = first ++ action :: second → run (manage nfkc) client first = some before →
        manage nfkc before action = some after → Account nfkc before action after := by
  have reached : ∀ events state, run (manage nfkc) client events = some state → Managed state := fun _ _ partway =>
    run_invariant Managed (fun _ _ _ managed taken => manage_managed taken managed) (created_managed created) partway
  refine ⟨(reached actions final executed).secret, ?_⟩
  intro first action second before after _ partway taken
  exact manage_account taken (reached first before partway)

def appForm (method : String) : ClientForm where
  clientName := some "App"
  clientUri := some ""
  scope := some "openid"
  redirectUri := some "https://a/cb"
  grantType := some "authorization_code"
  responseType := some "code"
  tokenEndpointAuthMethod := some method

/-- A confidential client is edited to be public, disabled, edited back and rotated; in
between a form without a name is refused. -/
def managing : List ClientAction :=
  [.edit (appForm "none") ⟨"first", by decide⟩ ⟨7100000, by decide⟩ ⟨7100000, by decide⟩, .toggle ⟨8100000, by decide⟩,
    .edit { appForm "none" with clientName := none } ⟨"second", by decide⟩ ⟨9100000, by decide⟩ ⟨9100000, by decide⟩,
    .edit (appForm "client_secret_post") ⟨"third", by decide⟩ ⟨10100000, by decide⟩ ⟨11100000, by decide⟩,
    .rotate ⟨"fourth", by decide⟩ ⟨12100000, by decide⟩]

theorem rotated_client_managed : ∃ client before after final,
    createClient id (appForm "client_secret_basic") 1 7 "abc" ⟨"s", by decide⟩ 5000000 = .ok client ∧
      run (manage id) client managing = some final ∧ final.clientSecret = "fourth" ∧ (final.clientSecret = "" ↔ final.isPublic) ∧
      run (manage id) client (managing.take 3) = some before ∧ before.clientSecret = "" ∧ after.clientSecret = "third" ∧
      Account id before
        (.edit (appForm "client_secret_post") ⟨"third", by decide⟩ ⟨10100000, by decide⟩ ⟨11100000, by decide⟩) after := by
  have accepted : ∃ client, createClient id (appForm "client_secret_basic") 1 7 "abc" ⟨"s", by decide⟩ 5000000 = .ok client :=
    ⟨_, rfl⟩
  obtain ⟨client, created⟩ := accepted
  cases created
  have managed := client_managed id (appForm "client_secret_basic") 1 7 "abc" ⟨"s", by decide⟩ 5000000 _ rfl managing _ rfl
  refine ⟨_, _, _, _, rfl, rfl, rfl, managed.1, rfl, rfl, ?_, managed.2 (managing.take 3) _ (managing.drop 4) _ _ rfl rfl rfl⟩
  rfl

end Satoidc.Proofs.ClientManagement
