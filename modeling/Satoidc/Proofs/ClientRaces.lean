import Satoidc.Foundation.Interleaving
import Satoidc.Foundation.History
import Satoidc.Proofs.ClientManagement

/-! Dashboard pages that manage one client from objects of their own. An action
rewrites the whole metadata from what its page shows, so it also writes back every
key that it was not about. In runs where pages show those keys as they are stored,
each field holds what was last asked of it. -/

namespace Satoidc.Proofs.ClientRaces
open Foundation RegisteredClient ClientPages ClientManagement

inductive ClientField where
  | clientSecret
  | metadata (key : MetadataKey)
  deriving DecidableEq

def field (client : RegisteredClient) : ClientField → Option MetadataValue
  | .clientSecret => some (.str client.clientSecret)
  | .metadata key => client.clientMetadata.get key

/-- The values that a new secret comes with, and `none` for the other fields. -/
def rotation (secret : Secret) (now : Clock) : ClientField → Option (Option MetadataValue)
  | .clientSecret => some (some (.str secret.val))
  | .metadata .clientSecretRotatedAt | .metadata .updatedAt => some (some (.int (unixSeconds now)))
  | .metadata _ => none

def filledIn (built : ClientMetadata) (now : Clock) : ClientField → Option (Option MetadataValue)
  | .clientSecret => none
  | .metadata .updatedAt => some (some (.int (unixSeconds now)))
  | .metadata key => (builtValue built key).map some

/-- The value that an action of a page asks of a field, if it asks one. -/
def asked (nfkc : String → String) (shown : RegisteredClient) : ClientAction → ClientField → Option (Option MetadataValue)
  | .toggle now, .metadata .disabledAt =>
    some (if shown.isClientDisabled then none else some (.int (unixSeconds now)))
  | .toggle now, .metadata .updatedAt => some (some (.int (unixSeconds now)))
  | .toggle _, _ => none
  | .rotate secret now, asking => if shown.isPublic then none else rotation secret now asking
  | .edit form secret now rotatedAt, asking =>
    match buildClientMetadata nfkc form with
    | .error _ => none
    | .ok built =>
      if built.tokenEndpointAuthMethod = "none" then
        if asking = .clientSecret then some (some (.str "")) else filledIn built now asking
      else if shown.clientSecret = "" then (rotation secret rotatedAt asking).or (filledIn built now asking)
      else filledIn built now asking

/-- The change that an action intends: a value other than the one its page shows. -/
def intended (nfkc : String → String) (shown : RegisteredClient) (action : ClientAction) (changing : ClientField) :
    Option (Option MetadataValue) :=
  (asked nfkc shown action changing).filter (· ≠ field shown changing)

/-- The order in which an edit stores the keys. -/
def editOrder (shown : RegisteredClient) : List MetadataKey :=
  [.clientName, .clientUri, .grantTypes, .redirectUris, .responseTypes, .scope, .tokenEndpointAuthMethod] ++
    (if shown.clientMetadata.get .disabledAt = none then [] else [.disabledAt]) ++
    (if shown.clientMetadata.get .clientSecretRotatedAt = none then [] else [.clientSecretRotatedAt]) ++ [.updatedAt]

/-- An edit that stores the keys in another order. -/
def Reorders (nfkc : String → String) (shown : RegisteredClient) : ClientAction → Prop
  | .edit form _ _ _ => (∃ built, buildClientMetadata nfkc form = .ok built) ∧ shown.clientMetadata.keys ≠ editOrder shown
  | .rotate _ _ | .toggle _ => False

/-- The action is about some of the metadata, or about their order. -/
def Rewrites (nfkc : String → String) (shown : RegisteredClient) (action : ClientAction) : Prop :=
  (∃ key, intended nfkc shown action (.metadata key) ≠ none) ∨ Reorders nfkc shown action

structure WellStamped (client : RegisteredClient) : Prop where
  disabledAt : Stamped client .disabledAt
  rotatedAt : Stamped client .clientSecretRotatedAt

section perform
variable {nfkc : String → String} {shown after : RegisteredClient} {built : ClientMetadata} {action : ClientAction}
  {secret : Secret} {now : Clock}

theorem field_rotated (other : ClientField) :
    field (rotated shown secret now) other = (rotation secret now other).getD (field shown other) := by
  cases other with
  | clientSecret => rfl
  | metadata key => cases key <;> simp [field, rotated, rotation, Dict.get_set]

theorem field_edited (stamped : WellStamped shown) (other : ClientField) :
    field (edited shown built now) other = (filledIn built now other).getD (field shown other) := by
  cases other with
  | clientSecret => rfl
  | metadata key =>
    cases key with
    | disabledAt => exact get_edited_disabledAt stamped.disabledAt
    | clientSecretRotatedAt => exact get_edited_rotatedAt stamped.rotatedAt
    | updatedAt => simp [field, edited, filledIn, Dict.get_set]
    | _ => exact get_edited_form (by simp [builtValue])

theorem field_toggled (other : ClientField) :
    field (toggled shown now) other = (asked nfkc shown (.toggle now) other).getD (field shown other) := by
  cases other with
  | clientSecret => rfl
  | metadata key =>
    by_cases disabling : key = .disabledAt
    · subst disabling
      by_cases disabled : shown.isClientDisabled = true
      · simp [field, toggled, asked, Dict.get_set, Dict.get_pop, disabled]
      · simp [field, toggled, asked, Dict.get_set, disabled]
    · by_cases updating : key = .updatedAt
      · subst updating
        simp [field, toggled, asked, Dict.get_set]
      · have silent : asked nfkc shown (.toggle now) (.metadata key) = none := by
          cases key <;> first | rfl | contradiction
        rw [silent]
        exact get_toggled disabling updating

/-- An action that reaches its commit leaves every field as asked. -/
theorem performed_asked (performed : Performed nfkc shown action after) (stamped : WellStamped shown) (other : ClientField) :
    field after other = (asked nfkc shown action other).getD (field shown other) := by
  cases performed with
  | publishes accepted published =>
    simp only [asked, accepted, published, if_true]
    cases other with
    | clientSecret => rfl
    | metadata key =>
      rw [if_neg (by simp)]
      exact field_edited stamped (.metadata key)
  | issues accepted confidential missing =>
    simp only [asked, accepted, confidential, missing, if_false, if_true]
    rw [field_rotated, field_edited stamped, Option.getD_or]
  | edits accepted confidential kept =>
    simp only [asked, accepted, confidential, kept, if_false]
    exact field_edited stamped other
  | rotates confidential =>
    simp only [asked, if_neg confidential]
    exact field_rotated other
  | toggles => exact field_toggled other

theorem performed_intended (performed : Performed nfkc shown action after) (stamped : WellStamped shown) (other : ClientField) :
    field after other = (intended nfkc shown action other).getD (field shown other) := by
  rw [performed_asked performed stamped, intended]
  cases asked nfkc shown action other with
  | none => rfl
  | some value =>
    by_cases same : value = field shown other
    · simp [Option.filter_some, same]
    · simp [Option.filter_some, same]

theorem intended_none_iff (performed : Performed nfkc shown action after) (stamped : WellStamped shown) (other : ClientField) :
    intended nfkc shown action other = none ↔ field after other = field shown other := by
  rw [performed_intended performed stamped]
  cases changes : intended nfkc shown action other with
  | none => simp
  | some value =>
    have differs := (Option.filter_eq_some_iff.mp changes).2
    simpa using differs

theorem asked_stamp {key : MetadataKey} (management : key = .disabledAt ∨ key = .clientSecretRotatedAt)
    {value : MetadataValue} (asks : asked nfkc shown action (.metadata key) = some (some value)) :
    MetadataValue.truthy (some value) = true := by
  have issued : ∀ {drawn : Secret} {clock : Clock}, rotation drawn clock (.metadata key) = some (some value) →
      MetadataValue.truthy (some value) = true := by
    intro drawn clock issues
    rcases management with rfl | rfl
    · cases issues
    · cases issues
      exact clock_truthy
  have silent : ∀ {built : ClientMetadata} {clock : Clock}, filledIn built clock (.metadata key) = none := by
    intro built clock
    rcases management with rfl | rfl
    · rfl
    · rfl
  cases action with
  | toggle now =>
    rcases management with rfl | rfl
    · by_cases disabled : shown.isClientDisabled = true
      · simp [asked, disabled] at asks
      · simp only [asked, disabled] at asks
        cases asks
        exact clock_truthy
    · cases asks
  | rotate secret now =>
    by_cases published : shown.isPublic
    · simp [asked, published] at asks
    · rw [asked, if_neg published] at asks
      exact issued asks
  | edit form secret now rotatedAt =>
    cases accepted : buildClientMetadata nfkc form with
    | error _ => simp [asked, accepted] at asks
    | ok built =>
      simp only [asked, accepted, silent, Option.or_none] at asks
      split at asks
      · cases asks
      · split at asks
        · exact issued asks
        · cases asks

theorem performed_stamped (performed : Performed nfkc shown action after) (stamped : WellStamped shown) :
    WellStamped after := by
  have carried : ∀ key, (key = .disabledAt ∨ key = .clientSecretRotatedAt) → Stamped shown key → Stamped after key := by
    intro key management before value holds
    have same := performed_asked performed stamped (.metadata key)
    rw [field, holds] at same
    cases asks : asked nfkc shown action (.metadata key) with
    | none =>
      rw [asks] at same
      exact before value same.symm
    | some result =>
      rw [asks] at same
      exact asked_stamp management (asks.trans (congrArg some same.symm))
  exact ⟨carried _ (.inl rfl) stamped.disabledAt, carried _ (.inr rfl) stamped.rotatedAt⟩

theorem keys_keepKey {current next : Metadata} {key : MetadataKey}
    (stamps : ∀ value, current.get key = some value → MetadataValue.truthy (some value) = true) (absent : key ∉ next.keys) :
    (keepKey current next key).keys = next.keys ++ if current.get key = none then [] else [key] := by
  unfold keepKey
  cases found : current.get key with
  | none => simp
  | some value => simp [stamps value found, Dict.keys_set, absent]

theorem keys_dict (built : ClientMetadata) : built.dict.keys =
    [.clientName, .clientUri, .grantTypes, .redirectUris, .responseTypes, .scope, .tokenEndpointAuthMethod] := by
  simp [ClientMetadata.dict, Dict.setAll, Dict.keys_set]
  rfl

theorem keys_edited (stamped : WellStamped shown) : (edited shown built now).clientMetadata.keys = editOrder shown := by
  have first : (keepKey shown.clientMetadata built.dict .disabledAt).keys = _ :=
    keys_keepKey stamped.disabledAt (by simp [keys_dict])
  have absent : .clientSecretRotatedAt ∉ (keepKey shown.clientMetadata built.dict .disabledAt).keys := by
    rw [first, keys_dict]
    cases shown.clientMetadata.get .disabledAt <;> simp
  have second : (keepKey shown.clientMetadata (keepKey shown.clientMetadata built.dict .disabledAt)
      .clientSecretRotatedAt).keys = _ := keys_keepKey stamped.rotatedAt absent
  rw [edited, Dict.keys_set, second, first, keys_dict, editOrder, if_neg]
  cases shown.clientMetadata.get .disabledAt <;> cases shown.clientMetadata.get .clientSecretRotatedAt <;> simp

theorem keys_rotated (rotatedAt : .clientSecretRotatedAt ∈ shown.clientMetadata.keys)
    (updatedAt : .updatedAt ∈ shown.clientMetadata.keys) :
    (rotated shown secret now).clientMetadata.keys = shown.clientMetadata.keys := by
  have rotation : (shown.clientMetadata.set .clientSecretRotatedAt (.int (unixSeconds now))).keys =
    shown.clientMetadata.keys := by
    rw [Dict.keys_set, if_pos rotatedAt]
  rw [rotated, Dict.keys_set, rotation, if_pos updatedAt]

theorem rotatedAt_rotated : .clientSecretRotatedAt ∈ (rotated shown secret now).clientMetadata.keys := by
  rw [Dict.mem_keys, get_rotated_rotatedAt]
  simp

theorem updatedAt_rotated : .updatedAt ∈ (rotated shown secret now).clientMetadata.keys := by
  rw [Dict.mem_keys]
  simp [rotated, Dict.get_set]

theorem toggled_changes :
    (toggled shown now).clientMetadata.get .disabledAt ≠ shown.clientMetadata.get .disabledAt := by
  intro same
  have result : (toggled shown now).clientMetadata.get .disabledAt =
      if shown.isClientDisabled then none else some (.int (unixSeconds now)) := by
    apply (field_toggled (.metadata .disabledAt)).trans
    rw [asked, Option.getD_some]
    exact id
  rw [same] at result
  by_cases disabled : shown.isClientDisabled = true
  · rw [if_pos disabled] at result
    rw [isClientDisabled, result] at disabled
    cases disabled
  · rw [if_neg disabled] at result
    rw [isClientDisabled, result] at disabled
    exact disabled clock_truthy

/-- The metadata that an action stores differ from those its page shows exactly when
it rewrites them. -/
theorem rewrites_iff (performed : Performed nfkc shown action after) (stamped : WellStamped shown) :
    Rewrites nfkc shown action ↔ after.clientMetadata ≠ shown.clientMetadata := by
  have unchanged : ∀ key, intended nfkc shown action (.metadata key) = none ↔
      after.clientMetadata.get key = shown.clientMetadata.get key := fun key => intended_none_iff performed stamped _
  by_cases changes : ∃ key, intended nfkc shown action (.metadata key) ≠ none
  · obtain ⟨key, intends⟩ := changes
    refine iff_of_true (.inl ⟨key, intends⟩) ?_
    intro same
    exact intends ((unchanged key).mpr (by rw [same]))
  · have same : ∀ key, after.clientMetadata.get key = shown.clientMetadata.get key := by
      intro key
      apply (unchanged key).mp
      by_contra intends
      exact changes ⟨key, intends⟩
    have ordered : after.clientMetadata = shown.clientMetadata ↔ after.clientMetadata.keys = shown.clientMetadata.keys := by
      rw [Dict.eq_iff]
      exact and_iff_left same
    have present : ∀ key, key ∈ after.clientMetadata.keys → key ∈ shown.clientMetadata.keys := by
      intro key
      rw [Dict.mem_keys, Dict.mem_keys, same]
      exact id
    rw [Ne, ordered, Rewrites, or_iff_right changes]
    cases performed with
    | @publishes _ built _ now _ accepted published =>
      have stored : (edited shown built now).clientMetadata.keys = editOrder shown := keys_edited stamped
      rw [stored, Reorders, and_iff_right ⟨built, accepted⟩]
      exact ne_comm
    | @edits _ built _ now _ accepted confidential kept =>
      have stored : (edited shown built now).clientMetadata.keys = editOrder shown := keys_edited stamped
      rw [stored, Reorders, and_iff_right ⟨built, accepted⟩]
      exact ne_comm
    | @issues _ built secret now rotatedAt accepted confidential missing =>
      have stored : (edited shown built now).clientMetadata.keys = editOrder shown := keys_edited stamped
      have had := present _ rotatedAt_rotated
      have kept : (rotated (edited shown built now) secret rotatedAt).clientMetadata.keys = editOrder shown := by
        apply (keys_rotated ?_ ?_).trans stored
        · rw [Dict.mem_keys, get_edited_rotatedAt stamped.rotatedAt, ← Dict.mem_keys]
          exact had
        · rw [stored, editOrder]
          exact List.mem_append_right _ List.mem_cons_self
      rw [kept, Reorders, and_iff_right ⟨built, accepted⟩]
      exact ne_comm
    | rotates confidential =>
      refine iff_of_false id (not_not.mpr ?_)
      exact keys_rotated (present _ rotatedAt_rotated) (present _ updatedAt_rotated)
    | toggles => exact absurd (same .disabledAt) toggled_changes

theorem raised_asked {raised : FormError} (refused : (action.perform nfkc).run shown = (.error raised, shown))
    (other : ClientField) : asked nfkc shown action other = none := by
  cases action with
  | toggle now => cases refused
  | rotate secret now =>
    rw [ClientAction.perform, run_discard, rotateClientSecret_run] at refused
    by_cases published : shown.isPublic
    · rw [asked, if_pos published]
    · rw [if_neg published] at refused
      cases refused
  | edit form secret now rotatedAt =>
    cases accepted : buildClientMetadata nfkc form with
    | error _ => rw [asked, accepted]
    | ok built =>
      rw [ClientAction.perform, save_ok accepted] at refused
      cases refused

theorem raised_keeps {raised : FormError} (refused : (action.perform nfkc).run shown = (.error raised, shown)) :
    ¬ Rewrites nfkc shown action := by
  intro rewrites
  rcases rewrites with ⟨key, intends⟩ | reorders
  · rw [intended, raised_asked refused] at intends
    exact intends rfl
  · cases action with
    | toggle now => exact reorders
    | rotate secret now => exact reorders
    | edit form secret now rotatedAt =>
      obtain ⟨built, accepted⟩ := reorders.1
      rw [ClientAction.perform, save_ok accepted] at refused
      cases refused

/-- Only a toggle asks for a client to be enabled, and only where its page shows it
disabled. -/
theorem asked_enabled (asks : asked nfkc shown action (.metadata .disabledAt) = some none) :
    ∃ now, action = .toggle now ∧ shown.isClientDisabled = true := by
  cases action with
  | toggle now =>
    refine ⟨now, rfl, ?_⟩
    by_contra enabled
    simp [asked, enabled] at asks
  | rotate secret now =>
    by_cases published : shown.isPublic
    · simp [asked, published] at asks
    · rw [asked, if_neg published] at asks
      cases asks
  | edit form secret now rotatedAt =>
    have silent : ∀ {built : ClientMetadata}, filledIn built now (.metadata .disabledAt) = none := rfl
    have unissued : rotation secret rotatedAt (.metadata .disabledAt) = none := rfl
    cases accepted : buildClientMetadata nfkc form with
    | error _ => simp [asked, accepted] at asks
    | ok built => simp [asked, accepted, silent, unissued] at asks

end perform

/-- The object of a page is as its session last read or wrote it. -/
structure Own (page : Page) : Prop where
  current : page.loaded = page.client
  stamped : WellStamped page.client

section act
variable {nfkc : String → String} {stored : RegisteredClient} {page : Page} {action : ClientAction}

theorem act_own (nfkc : String → String) (action : ClientAction) (own : Own page) (stamped : WellStamped stored) :
    WellStamped (act nfkc action stored page).1 ∧ Own (act nfkc action stored page).2 := by
  rcases perform_cases nfkc page.client action with ⟨raised, refused⟩ | ⟨after, done, performed⟩
  · simp only [act, refused]
    exact ⟨stamped, own⟩
  · simp only [act, done]
    have left := performed_stamped performed own.stamped
    refine ⟨?_, rfl, left⟩
    by_cases same : after.clientMetadata = page.loaded.clientMetadata
    · have kept : (page.loaded.flush after stored).clientMetadata = stored.clientMetadata := if_pos same
      exact ⟨by rw [Stamped, kept]; exact stamped.disabledAt, by rw [Stamped, kept]; exact stamped.rotatedAt⟩
    · have written : (page.loaded.flush after stored).clientMetadata = after.clientMetadata := if_neg same
      exact ⟨by rw [Stamped, written]; exact left.disabledAt, by rw [Stamped, written]; exact left.rotatedAt⟩

theorem act_secret (own : Own page) : field (act nfkc action stored page).1 .clientSecret =
    (intended nfkc page.client action .clientSecret).getD (field stored .clientSecret) := by
  rcases perform_cases nfkc page.client action with ⟨raised, refused⟩ | ⟨after, done, performed⟩
  · simp [act, refused, intended, raised_asked refused]
  · simp only [act, done]
    have result := performed_intended performed own.stamped .clientSecret
    have unchanged := intended_none_iff performed own.stamped .clientSecret
    cases changes : intended nfkc page.client action .clientSecret with
    | none =>
      have same : after.clientSecret = page.client.clientSecret := by simpa [field] using unchanged.mp changes
      simp [field, flush, writeColumn, own.current, same]
    | some value =>
      rw [changes] at result unchanged
      have differs : after.clientSecret ≠ page.client.clientSecret := by simpa [field] using unchanged
      simp only [field, flush, writeColumn, own.current, if_neg differs]
      exact result

theorem act_rewrites (own : Own page) (rewrites : Rewrites nfkc page.client action) (key : MetadataKey) :
    field (act nfkc action stored page).1 (.metadata key) =
      (intended nfkc page.client action (.metadata key)).getD (field page.client (.metadata key)) := by
  rcases perform_cases nfkc page.client action with ⟨raised, refused⟩ | ⟨after, done, performed⟩
  · exact absurd rewrites (raised_keeps refused)
  · have differs := (rewrites_iff performed own.stamped).mp rewrites
    rw [← performed_intended performed own.stamped]
    simp [act, done, field, flush, writeColumn, own.current, differs]

theorem act_keeps (own : Own page) (keeps : ¬ Rewrites nfkc page.client action) (key : MetadataKey) :
    field (act nfkc action stored page).1 (.metadata key) = field stored (.metadata key) := by
  rcases perform_cases nfkc page.client action with ⟨raised, refused⟩ | ⟨after, done, performed⟩
  · simp [act, refused]
  · have same := not_not.mp ((rewrites_iff performed own.stamped).not.mp keeps)
    simp [act, done, field, flush, writeColumn, own.current, same]

end act

/-- A page that rewrites the metadata shows every key that its action is not about
as it is stored. -/
def Fresh (nfkc : String → String) (world : World RegisteredClient (Option Page)) : Nat × Input → Prop
  | (index, .act action) =>
    ∀ page, world.sessions index = some page → Rewrites nfkc page.client action →
      ∀ key, intended nfkc page.client action (.metadata key) = none →
        page.client.clientMetadata.get key = world.shared.clientMetadata.get key
  | (_, .load) => True

/-- The change of a field that an event intends. An action that raises intends none. -/
def writes (nfkc : String → String) (changing : ClientField) (world : World RegisteredClient (Option Page)) :
    Nat × Input → Option (Option MetadataValue)
  | (index, .act action) => (world.sessions index).bind fun page => intended nfkc page.client action changing
  | (_, .load) => none

structure NothingLost (nfkc : String → String) (client : RegisteredClient) (events : List (Nat × Input)) : Prop where
  fields : ∀ first second reached, events = first ++ second →
    run (World.step (advance nfkc)) (initial client) first = some reached →
    ∀ changing, field reached.shared changing =
      lastWritten (World.step (advance nfkc)) (writes nfkc changing) (initial client) (field client changing) first
  disabled : ∀ first index input second before after, events = first ++ (index, input) :: second →
    run (World.step (advance nfkc)) (initial client) first = some before →
    World.step (advance nfkc) before (index, input) = some after →
    before.shared.isClientDisabled = true → after.shared.isClientDisabled = false →
    ∃ now page, input = .act (.toggle now) ∧ before.sessions index = some page ∧ page.client.isClientDisabled = true

structure Sound (world : World RegisteredClient (Option Page)) : Prop where
  stamped : WellStamped world.shared
  own : ∀ index page, world.sessions index = some page → Own page

section run
variable {nfkc : String → String} {world next : World RegisteredClient (Option Page)} {client : RegisteredClient}

theorem created_sound {form : ClientForm} {id : Nat} {userId : UserId} {clientId : String} {drawn : Secret} {now : Instant}
    (created : createClient nfkc form id userId clientId drawn now = .ok client) : Sound (initial client) := by
  have managed := created_managed created
  refine ⟨⟨managed.disabledAt, managed.rotatedAt⟩, ?_⟩
  intro index page absent
  cases absent

theorem step_cases {index : Nat} {input : Input} (taken : World.step (advance nfkc) world (index, input) = some next) :
    input = .load ∧ next = world.moved index world.shared (some ⟨world.shared, world.shared⟩) ∨
      ∃ action page, input = .act action ∧ world.sessions index = some page ∧
        next = world.moved index (act nfkc action world.shared page).1 (some (act nfkc action world.shared page).2) := by
  obtain ⟨shared, session, moved, rfl⟩ := World.step_some.mp taken
  cases input with
  | load =>
    cases moved
    exact .inl ⟨rfl, rfl⟩
  | act action =>
    cases found : world.sessions index with
    | none =>
      rw [found] at moved
      cases moved
    | some page =>
      rw [found] at moved
      cases moved
      exact .inr ⟨action, page, rfl, rfl, rfl⟩

theorem step_sound {event : Nat × Input} (sound : Sound world) (taken : World.step (advance nfkc) world event = some next) :
    Sound next := by
  obtain ⟨index, input⟩ := event
  have others : ∀ shared session other page, other ≠ index → (world.moved index shared session).sessions other = some page →
      Own page := by
    intro shared session other page different found
    rw [World.moved_other _ _ _ different] at found
    exact sound.own other page found
  rcases step_cases taken with ⟨-, rfl⟩ | ⟨action, page, -, found, rfl⟩
  · refine ⟨sound.stamped, ?_⟩
    intro other page shown
    by_cases same : other = index
    · subst same
      rw [World.moved_self] at shown
      cases shown
      exact ⟨rfl, sound.stamped⟩
    · exact others _ _ other page same shown
  · obtain ⟨stamped, own⟩ := act_own nfkc action (sound.own index page found) sound.stamped
    refine ⟨stamped, ?_⟩
    intro other another shown
    by_cases same : other = index
    · subst same
      rw [World.moved_self] at shown
      cases shown
      exact own
    · exact others _ _ other another same shown

/-- A step is fresh exactly when it writes what it intends and nothing else. -/
theorem fresh_iff {event : Nat × Input} (sound : Sound world) (taken : World.step (advance nfkc) world event = some next) :
    Fresh nfkc world event ↔
      ∀ changing, field next.shared changing = (writes nfkc changing world event).getD (field world.shared changing) := by
  obtain ⟨index, input⟩ := event
  rcases step_cases taken with ⟨rfl, rfl⟩ | ⟨action, page, rfl, found, rfl⟩
  · exact iff_of_true trivial fun _ => rfl
  · have own := sound.own index page found
    simp only [Fresh, writes, found, Option.some.injEq, forall_eq', Option.bind_some, World.moved_shared]
    constructor
    · intro fresh changing
      cases changing with
      | clientSecret => exact act_secret own
      | metadata key =>
        by_cases rewrites : Rewrites nfkc page.client action
        · rw [act_rewrites own rewrites]
          cases changes : intended nfkc page.client action (.metadata key) with
          | none => exact fresh rewrites key changes
          | some value => rfl
        · rw [act_keeps own rewrites]
          cases changes : intended nfkc page.client action (.metadata key) with
          | none => rfl
          | some value => exact absurd (.inl ⟨key, by simp [changes]⟩) rewrites
    · intro written rewrites key silent
      have result := written (.metadata key)
      rw [act_rewrites own rewrites, silent] at result
      exact result

/-- Where every field is as last asked, only a page that shows the client disabled
enables it. -/
theorem enabled_by_toggle {index : Nat} {input : Input}
    (written : field next.shared (.metadata .disabledAt) =
      (writes nfkc (.metadata .disabledAt) world (index, input)).getD (field world.shared (.metadata .disabledAt)))
    (stamped : WellStamped next.shared) (disabled : world.shared.isClientDisabled = true)
    (enabled : next.shared.isClientDisabled = false) :
    ∃ now page, input = .act (.toggle now) ∧ world.sessions index = some page ∧ page.client.isClientDisabled = true := by
  have cleared : field next.shared (.metadata .disabledAt) = none := by
    cases shown : field next.shared (.metadata .disabledAt) with
    | none => rfl
    | some value => exact absurd (stamped.disabledAt value shown) (by simpa [isClientDisabled, field, ← shown] using enabled)
  cases changes : writes nfkc (.metadata .disabledAt) world (index, input) with
  | none =>
    rw [changes, cleared] at written
    rw [isClientDisabled] at disabled
    have absent : world.shared.clientMetadata.get .disabledAt = none := written.symm
    rw [absent] at disabled
    cases disabled
  | some value =>
    rw [changes, cleared] at written
    cases written
    cases input with
    | load => cases changes
    | act action =>
      obtain ⟨page, found, intends⟩ := Option.bind_eq_some_iff.mp changes
      obtain ⟨now, rfl, shows⟩ := asked_enabled (Option.filter_eq_some_iff.mp intends).1
      exact ⟨now, page, rfl, found, shows⟩

end run

/-- Nothing is lost of what the pages do to a client exactly in the runs where each
page that rewrites the metadata shows the keys it is not about as they are stored. -/
theorem nothing_lost_iff (nfkc : String → String) (form : ClientForm) (id : Nat) (userId : UserId) (clientId : String)
    (drawn : Secret) (now : Instant) (client : RegisteredClient)
    (created : createClient nfkc form id userId clientId drawn now = .ok client) (events : List (Nat × Input))
    (final : World RegisteredClient (Option Page))
    (executed : run (World.step (advance nfkc)) (initial client) events = some final) :
    Along (World.step (advance nfkc)) (Fresh nfkc) (initial client) events ↔ NothingLost nfkc client events := by
  have sound : ∀ past reached, run (World.step (advance nfkc)) (initial client) past = some reached → Sound reached :=
    fun _ _ partway => run_invariant Sound (fun _ _ _ held taken => step_sound held taken) (created_sound created) partway
  constructor
  · intro fresh
    have fields : ∀ first second reached, events = first ++ second →
        run (World.step (advance nfkc)) (initial client) first = some reached →
        ∀ changing, field reached.shared changing =
          lastWritten (World.step (advance nfkc)) (writes nfkc changing) (initial client) (field client changing) first := by
      intro first second reached split partway changing
      rw [split] at fresh
      refine cell_lastWritten (fun world : World RegisteredClient (Option Page) => field world.shared changing) Sound
        (created_sound created) ?_ (fresh.append partway).1 partway
      intro world event next held allowed taken
      exact ⟨step_sound held taken, (fresh_iff held taken).mp allowed changing⟩
    refine ⟨fields, ?_⟩
    intro first index input second before after split partway taken disabled enabled
    have held := sound first before partway
    have allowed := along_iff.mp fresh first (index, input) second before split partway
    exact enabled_by_toggle ((fresh_iff held taken).mp allowed _) (step_sound held taken).stamped disabled enabled
  · intro kept
    refine .of_run executed ?_
    intro first event second reached next split partway taken _
    refine (fresh_iff (sound first reached partway) taken).mpr ?_
    intro changing
    have earlier := kept.fields first (event :: second) reached split partway changing
    have later := kept.fields (first ++ [event]) second next (by rw [split, List.append_assoc]; rfl)
      (run_snoc_some.mpr ⟨reached, partway, taken⟩) changing
    rw [later, lastWritten_snoc partway taken, ← earlier]

def saveUnchanged : ClientAction :=
  .edit (appForm "client_secret_basic") ⟨"t", by decide⟩ ⟨9000000, by decide⟩ ⟨9000000, by decide⟩

/-- One page disables the client, and another one that is loaded afterwards saves its form. -/
def disableAndSave : List (Nat × Input) :=
  [(0, .load), (0, .act (.toggle ⟨7000000, by decide⟩)), (1, .load), (1, .act saveUnchanged)]

theorem disabled_and_saved_in_turn : ∃ client final,
    createClient id (appForm "client_secret_basic") 1 7 "abc" ⟨"s", by decide⟩ 5000000 = .ok client ∧
      run (World.step (advance id)) (initial client) disableAndSave = some final ∧ NothingLost id client disableAndSave := by
  have accepted : ∃ client, createClient id (appForm "client_secret_basic") 1 7 "abc" ⟨"s", by decide⟩ 5000000 = .ok client :=
    ⟨_, rfl⟩
  obtain ⟨client, created⟩ := accepted
  refine ⟨client, _, created, rfl, ?_⟩
  apply (nothing_lost_iff id _ 1 7 "abc" ⟨"s", by decide⟩ 5000000 client created _ _ rfl).mp
  refine .cons rfl trivial (.cons rfl ?_ (.cons rfl trivial (.cons rfl ?_ trivial)))
  all_goals
    intro page shown _ key _
    cases shown
    rfl

def loadTwiceAndDisable : List (Nat × Input) := [(0, .load), (1, .load), (0, .act (.toggle ⟨7000000, by decide⟩))]

/-- A page that was loaded before the client was disabled saves its form unchanged,
and the client is enabled again. -/
theorem stale_edit_enables : ∃ client before after,
    createClient id (appForm "client_secret_basic") 1 7 "abc" ⟨"s", by decide⟩ 5000000 = .ok client ∧
      run (World.step (advance id)) (initial client) loadTwiceAndDisable = some before ∧
      World.step (advance id) before (1, .act saveUnchanged) = some after ∧
      before.shared.isClientDisabled = true ∧ after.shared.isClientDisabled = false ∧
      ¬ NothingLost id client (loadTwiceAndDisable ++ [(1, .act saveUnchanged)]) := by
  refine ⟨_, _, _, rfl, rfl, rfl, rfl, rfl, ?_⟩
  intro kept
  obtain ⟨now, page, toggles, -⟩ := kept.disabled loadTwiceAndDisable 1 (.act saveUnchanged) [] _ _ rfl rfl rfl rfl rfl
  cases toggles

end Satoidc.Proofs.ClientRaces
