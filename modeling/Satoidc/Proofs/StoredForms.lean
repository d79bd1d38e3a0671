import Satoidc.Dashboard
import Satoidc.Discovery
import Satoidc.Foundation.Provenance
import Satoidc.Proofs.ClientForms
import Satoidc.Proofs.ClientManagement

/-! Where the metadata of the stored clients come from. Pages write what they loaded
long ago, so a form may be lost; but as the metadata are one column, no two forms are
ever mixed. -/

namespace Satoidc.Proofs.StoredForms
open Foundation Dashboard ClientManagement

/-- The keys that a form has a value for. -/
def FormKey : MetadataKey → Prop
  | .disabledAt | .updatedAt | .clientSecretRotatedAt => False
  | _ => True

theorem builtValue_formKey {built : ClientMetadata} {key : MetadataKey} (form : FormKey key) : builtValue built key ≠ none := by
  cases key <;> first | exact form.elim | exact Option.some_ne_none _

/-- The metadata say what was built from a form. -/
def Shows (metadata : Metadata) (built : ClientMetadata) : Prop := ∀ key, FormKey key → metadata.get key = builtValue built key

/-- The metadata of a client, by its id. -/
abbrev Stored := Nat × Metadata

/-- The same client and the same form, whatever else has happened to the client. -/
def Alike (item source : Stored) : Prop := item.1 = source.1 ∧ ∀ key, FormKey key → item.2.get key = source.2.get key

theorem Alike.refl (item : Stored) : Alike item item := ⟨rfl, fun _ _ => rfl⟩

theorem Alike.trans {item middle source : Stored} (first : Alike item middle) (second : Alike middle source) :
    Alike item source :=
  ⟨first.1.trans second.1, fun key form => (first.2 key form).trans (second.2 key form)⟩

def itemOf (client : RegisteredClient) : Stored := (client.id, client.clientMetadata)

def objectsOf : Tab → List Entry
  | .developer _ entries => entries
  | .createClient _ | .closed => []

/-- A row or an object of a page has the metadata. -/
def Held (shared : Shared) (tab : Tab) (item : Stored) : Prop :=
  (∃ row ∈ shared.clients.rows, itemOf row = item) ∨ ∃ entry ∈ objectsOf tab, itemOf entry.client = item

/-- The input sends a form for the client with an id: a new one, or an object that the page has. -/
inductive Sends : Tab → Input → Nat → ClientForm → Prop where
  | creates {userId form id clientId secret now} : Sends (.createClient userId) (.submit form id clientId secret now) id form
  | saves {userId entries id form secret now rotatedAt} (known : ∃ entry ∈ entries, entry.client.id = id) :
      Sends (.developer userId entries) (.act id (.edit form secret now rotatedAt)) id form

/-- The input sends a form that is accepted, and the metadata are built from it. -/
def Built (nfkc : String → String) (tab : Tab) (input : Input) (item : Stored) : Prop :=
  ∃ form built, Sends tab input item.1 form ∧ buildClientMetadata nfkc form = .ok built ∧ item.2 = built.dict

section step
variable {nfkc : String → String} {shared after : Shared} {tab later : Tab} {input : Input} {item : Stored}

/-- What a step leaves is what was there before it, or what it has built. -/
def Explained (nfkc : String → String) (shared : Shared) (tab : Tab) (input : Input) (item : Stored) : Prop :=
  ∃ source, Alike item source ∧ (Held shared tab source ∨ Built nfkc tab input source)

theorem Explained.held (held : Held shared tab item) : Explained nfkc shared tab input item :=
  ⟨item, .refl item, .inl held⟩

theorem Explained.row {row : RegisteredClient} (member : row ∈ shared.clients.rows) :
    Explained nfkc shared tab input (itemOf row) := .held (.inl ⟨row, member, rfl⟩)

/-- Every object of a list is explained. -/
def AllExplained (nfkc : String → String) (shared : Shared) (tab : Tab) (input : Input) (entries : List Entry) : Prop :=
  ∀ entry ∈ entries, Explained nfkc shared tab input (itemOf entry.client)

theorem allExplained_objects (shared : Shared) (tab : Tab) : AllExplained nfkc shared tab input (objectsOf tab) := by
  intro entry member
  exact .held (.inr ⟨entry, member, rfl⟩)

theorem allExplained_assign {id : Nat} {client : RegisteredClient} {entries : List Entry}
    (known : AllExplained nfkc shared tab input entries) (new : Explained nfkc shared tab input (itemOf client)) :
    AllExplained nfkc shared tab input (assign id client entries) := by
  intro entry member
  obtain ⟨old, inside, rfl⟩ := List.mem_map.mp member
  split
  next => exact new
  next => exact known old inside

theorem allExplained_markDeleted {id : Nat} {entries : List Entry} (known : AllExplained nfkc shared tab input entries) :
    AllExplained nfkc shared tab input (markDeleted id entries) := by
  intro entry member
  obtain ⟨old, inside, rfl⟩ := List.mem_map.mp member
  split
  next => exact known old inside
  next => exact known old inside

theorem allExplained_settled {entries : List Entry} (known : AllExplained nfkc shared tab input entries) :
    AllExplained nfkc shared tab input (settled entries) := by
  intro entry member
  obtain ⟨old, inside, rfl⟩ := List.mem_map.mp member
  split
  next => exact known old inside
  next => exact known old inside

/-- A flush keeps the metadata of a row or replaces them by those of one object. -/
theorem flushRow_explained {entries : List Entry} {row : RegisteredClient} (known : AllExplained nfkc shared tab input entries)
    (old : Explained nfkc shared tab input (itemOf row)) : Explained nfkc shared tab input (itemOf (flushRow entries row)) := by
  unfold flushRow
  split
  next entry found =>
    have object := known entry (List.mem_of_find?_eq_some found)
    have selected := List.find?_some found
    simp only [Bool.and_eq_true, decide_eq_true_eq] at selected
    have same : itemOf (entry.loaded.flush entry.client row) =
        (row.id, writeColumn entry.loaded.clientMetadata entry.client.clientMetadata row.clientMetadata) := rfl
    rw [same]
    rcases writeColumn_cases entry.loaded.clientMetadata entry.client.clientMetadata row.clientMetadata with kept | written
    · rw [kept]
      exact old
    · rw [written, ← selected.2]
      exact object
  next => exact old

theorem commit_explained {entries : List Entry} (known : AllExplained nfkc shared tab input entries)
    (written : commit entries shared = some after) {row : RegisteredClient} (member : row ∈ after.clients.rows) :
    Explained nfkc shared tab input (itemOf row) := by
  unfold commit at written
  split at written
  next =>
    cases written
    have updated : row ∈ update (fun _ => True) (flushRow entries) shared.clients.rows := member
    simp only [mem_update, if_true] at updated
    obtain ⟨before, inside, rfl⟩ := updated
    exact flushRow_explained known (.row inside)
  next => cases written

/-- The rows and the objects that a step leaves are explained by what was there before it. -/
structure Traced (nfkc : String → String) (shared : Shared) (tab : Tab) (input : Input) (after : Shared)
    (later : Tab) : Prop where
  rows : ∀ row ∈ after.clients.rows, Explained nfkc shared tab input (itemOf row)
  objects : AllExplained nfkc shared tab input (objectsOf later)

theorem Traced.quiet (clients : after.clients = shared.clients) (known : AllExplained nfkc shared tab input (objectsOf later)) :
    Traced nfkc shared tab input after later where
  rows _ member := .row (clients ▸ member)
  objects := known

theorem Traced.closes : Traced nfkc shared tab input shared .closed := .quiet rfl (List.forall_mem_nil _)

theorem committed_traced {userId : UserId} {entries : List Entry} (known : AllExplained nfkc shared tab input entries)
    (taken : committed userId entries shared (commit entries shared) = (after, later)) :
    Traced nfkc shared tab input after later := by
  cases written : commit entries shared with
  | none => rw [written] at taken; cases taken; exact .closes
  | some next =>
    rw [written] at taken
    cases taken
    exact ⟨fun row member => commit_explained known written member, allExplained_settled known⟩

/-- Rotating and toggling leave the form alone; an edit replaces all of it. -/
theorem performed_explained {userId : UserId} {entries : List Entry} {entry : Entry} {action : ClientAction}
    {client : RegisteredClient}
    (member : entry ∈ entries) (performed : Performed nfkc entry.client action client) :
    Explained nfkc shared (.developer userId entries) (.act entry.client.id action) (itemOf client) := by
  have same : client.id = entry.client.id := by rw [performed.columns]
  have untouched : (∀ key, FormKey key → client.clientMetadata.get key = entry.client.clientMetadata.get key) →
      Explained nfkc shared (.developer userId entries) (.act entry.client.id action) (itemOf client) := by
    intro kept
    exact ⟨itemOf entry.client, ⟨same, kept⟩, .inl (.inr ⟨entry, member, rfl⟩)⟩
  have replaced : ∀ {form secret now rotatedAt built}, action = .edit form secret now rotatedAt →
      buildClientMetadata nfkc form = .ok built → Shows client.clientMetadata built →
      Explained nfkc shared (.developer userId entries) (.act entry.client.id action) (itemOf client) := by
    intro form secret now rotatedAt built saved accepted shows
    refine ⟨(entry.client.id, built.dict), ⟨same, ?_⟩, .inr ⟨form, built, ?_, accepted, rfl⟩⟩
    · intro key formKey
      exact (shows key formKey).trans (get_dict built key).symm
    · rw [saved]
      exact .saves ⟨entry, member, rfl⟩
  cases performed with
  | publishes accepted _ => exact replaced rfl accepted fun key formKey => get_edited_form (builtValue_formKey formKey)
  | edits accepted _ _ => exact replaced rfl accepted fun key formKey => get_edited_form (builtValue_formKey formKey)
  | issues accepted _ _ =>
    apply replaced rfl accepted
    intro key formKey
    rw [get_rotated (by rintro rfl; exact formKey) (by rintro rfl; exact formKey)]
    exact get_edited_form (builtValue_formKey formKey)
  | rotates _ =>
    apply untouched
    intro key formKey
    exact get_rotated (by rintro rfl; exact formKey) (by rintro rfl; exact formKey)
  | toggles =>
    apply untouched
    intro key formKey
    exact get_toggled (by rintro rfl; exact formKey) (by rintro rfl; exact formKey)

theorem act_traced {userId : UserId} {entries : List Entry} {entry : Entry} {action : ClientAction} (member : entry ∈ entries)
    (taken : act nfkc userId entries entry action shared = (after, later)) :
    Traced nfkc shared (.developer userId entries) (.act entry.client.id action) after later := by
  have known : AllExplained nfkc shared (.developer userId entries) (.act entry.client.id action) entries :=
    allExplained_objects shared (.developer userId entries)
  unfold act at taken
  rcases perform_cases nfkc entry.client action with ⟨raised, refused⟩ | ⟨client, accepted, performed⟩
  · rw [refused] at taken
    cases taken
    exact .quiet rfl (allExplained_assign known (known entry member))
  · rw [accepted] at taken
    have assigned := @allExplained_assign _ _ _ _ entry.client.id _ _ known (performed_explained member performed)
    dsimp only at taken
    split at taken
    next => cases taken; exact .quiet rfl assigned
    next => exact committed_traced assigned taken

theorem delete_traced {userId : UserId} {entries : List Entry} {id : Nat}
    (taken : delete userId entries id shared = (after, later)) :
    Traced nfkc shared (.developer userId entries) input after later := by
  have known : AllExplained nfkc shared (.developer userId entries) input (markDeleted id entries) :=
    allExplained_markDeleted (allExplained_objects shared (.developer userId entries))
  unfold delete at taken
  dsimp only at taken
  cases written : commit (markDeleted id entries) shared with
  | none => rw [written] at taken; cases taken; exact .closes
  | some flushed =>
    rw [written] at taken
    cases taken
    refine ⟨?_, allExplained_settled known⟩
    intro row member
    exact commit_explained known written (List.mem_filter.mp member).1

theorem submit_traced {userId : UserId} {form : ClientForm} {id : Nat} {clientId : String} {secret : Secret} {now : Instant}
    (taken : submit nfkc userId form id clientId secret now shared = some after) :
    Traced nfkc shared (.createClient userId) (.submit form id clientId secret now) after (.createClient userId) := by
  unfold submit createClient at taken
  cases accepted : buildClientMetadata nfkc form with
  | error raised => rw [accepted] at taken; cases taken; exact .quiet rfl (List.forall_mem_nil _)
  | ok built =>
    rw [accepted] at taken
    obtain ⟨clients, inserted, rfl⟩ := Option.map_eq_some_iff.mp taken
    have rows := Table.store_some.mp inserted
    refine ⟨?_, List.forall_mem_nil _⟩
    intro row member
    dsimp only at member
    rw [rows] at member
    rcases List.mem_append.mp member with old | new
    · exact .row old
    · cases List.mem_singleton.mp new
      exact ⟨(id, built.dict), .refl _, .inr ⟨form, built, .creates, accepted, rfl⟩⟩

theorem advance_traced {mover : Nat} (taken : advance nfkc mover input shared tab = some (after, later)) :
    Traced nfkc shared tab input after later := by
  unfold advance at taken
  split at taken
  next userId now =>
    cases taken
    cases admitted now shared.permissions userId with
    | none => exact .closes
    | some uid =>
      refine .quiet rfl ?_
      intro entry member
      obtain ⟨client, loaded, rfl⟩ := List.mem_map.mp member
      exact .row (List.mem_filter.mp loaded).1
  next userId now =>
    cases taken
    cases admitted now shared.permissions userId with
    | none => exact .closes
    | some uid => exact .quiet rfl (List.forall_mem_nil _)
  next =>
    obtain ⟨next, submitted, same⟩ := Option.map_eq_some_iff.mp taken
    cases same
    exact submit_traced submitted
  next id action _ userId entries =>
    obtain ⟨entry, found, acted⟩ := Option.map_eq_some_iff.mp taken
    have selected := List.find?_some found
    cases of_decide_eq_true selected
    exact act_traced (List.mem_of_find?_eq_some found) acted
  next =>
    obtain ⟨entry, -, deleted⟩ := Option.map_eq_some_iff.mp taken
    exact delete_traced deleted
  next => cases taken; exact .closes
  next => cases taken; exact .quiet rfl (allExplained_objects shared tab)
  next => cases taken

end step

section runs
variable {nfkc : String → String} {shared : Shared} {events : List (Nat × Input)} {final : World Shared Tab}

/-- The metadata in the tables and on the pages come from forms. -/
theorem forms (nfkc : String → String) :
    Provenance (step nfkc) Alike (fun world item => ∃ index, Held world.shared (world.sessions index) item)
      (fun world event item => Built nfkc (world.sessions event.1) event.2 item) where
  refl := Alike.refl
  trans := Alike.trans
  traced := by
    intro world event next item taken held
    obtain ⟨after, tab, moved, rfl⟩ := World.step_some.mp taken
    have traced := advance_traced moved
    have explained : ∀ {item}, Explained nfkc world.shared (world.sessions event.1) event.2 item →
        ∃ source, Alike item source ∧ ((∃ index, Held world.shared (world.sessions index) source) ∨
          Built nfkc (world.sessions event.1) event.2 source) := by
      intro item explained
      obtain ⟨source, alike, held | built⟩ := explained
      · exact ⟨source, alike, .inl ⟨event.1, held⟩⟩
      · exact ⟨source, alike, .inr built⟩
    obtain ⟨index, ⟨row, member, rfl⟩ | ⟨entry, member, rfl⟩⟩ := held
    · exact explained (traced.rows row member)
    · by_cases mine : index = event.1
      · rw [mine, World.moved_self] at member
        exact explained (traced.objects entry member)
      · rw [World.moved_other _ _ _ mine] at member
        exact ⟨itemOf entry.client, .refl _, .inl ⟨index, .inr ⟨entry, member, rfl⟩⟩⟩

/-- The event sends an accepted form for the client of the row, and the row shows it. -/
def ShownBy (nfkc : String → String) (row : RegisteredClient) (world : World Shared Tab) (event : Nat × Input) : Prop :=
  ∃ form built, Sends (world.sessions event.1) event.2 row.id form ∧ buildClientMetadata nfkc form = .ok built ∧
    Shows row.clientMetadata built

theorem row_traced (executed : run (step nfkc) (initial shared) events = some final) {row : RegisteredClient}
    (stored : row ∈ final.shared.clients.rows) :
    (∃ before ∈ shared.clients.rows, Alike (itemOf row) (itemOf before)) ∨
      Occurred (step nfkc) (initial shared) events (ShownBy nfkc row) := by
  obtain ⟨source, alike, ⟨_, first⟩ | occurred⟩ := (forms nfkc).run executed ⟨0, .inl ⟨row, stored, rfl⟩⟩
  · rcases first with ⟨before, member, rfl⟩ | ⟨_, impossible, _⟩
    · exact .inl ⟨before, member, alike⟩
    · cases impossible
  · refine .inr (occurred.mono ?_)
    intro world event built
    obtain ⟨form, metadata, sends, accepted, same⟩ := built
    rw [← alike.1] at sends
    refine ⟨form, metadata, sends, accepted, fun key formKey => ?_⟩
    rw [← get_dict, ← same]
    exact alike.2 key formKey

/-- The seven form values of a stored client are those of one form, which was sent for
this client and accepted, or are all as they were at the start. -/
theorem forms_unmixed (executed : run (step nfkc) (initial shared) events = some final) {row : RegisteredClient}
    (stored : row ∈ final.shared.clients.rows) :
    (∃ before ∈ shared.clients.rows, before.id = row.id ∧
      ∀ key, FormKey key → row.clientMetadata.get key = before.clientMetadata.get key) ∨
      Occurred (step nfkc) (initial shared) events (ShownBy nfkc row) := by
  rcases row_traced executed stored with ⟨before, member, sameId, sameForm⟩ | occurred
  · exact .inl ⟨before, member, sameId.symm, sameForm⟩
  · exact .inr occurred

/-- The metadata are complete, and say nothing that the provider does not advertise. -/
structure Advertised (config : OpenIdConfiguration) (metadata : Metadata) : Prop where
  name : ∃ name, metadata.get .clientName = some (.str name) ∧ name ≠ ""
  redirects : ∃ uris, metadata.get .redirectUris = some (.list uris) ∧ uris ≠ [] ∧ ∀ uri ∈ uris, IsHttpUrl (cleaned uri)
  grants : ∃ grants, metadata.get .grantTypes = some (.list grants) ∧ "authorization_code" ∈ grants ∧
    ∀ grant ∈ grants, grant ∈ config.grantTypesSupported
  responses : ∃ responses, metadata.get .responseTypes = some (.list responses) ∧ responses ≠ [] ∧
    ∀ response ∈ responses, response ∈ config.responseTypesSupported
  scopes : ∃ scope, metadata.get .scope = some (.str scope) ∧ ClientForms.words scope ≠ [] ∧ (ClientForms.words scope).Nodup ∧
    ∀ word ∈ ClientForms.words scope, word ∈ config.scopesSupported
  method : ∃ method, metadata.get .tokenEndpointAuthMethod = some (.str method) ∧
    method ∈ config.tokenEndpointAuthMethodsSupported

theorem build_complete {form : ClientForm} {built : ClientMetadata} (accepted : buildClientMetadata nfkc form = .ok built) :
    ClientForms.Complete form ∧ ∀ url ∈ ClientForms.urls form, IsHttpUrl (cleaned url) := by
  by_cases splits : ∀ url ∈ ClientForms.urls form, urlsplit nfkc url ≠ none
  · obtain ⟨messages, checked, complete⟩ := ClientForms.errors_ok splits
    rw [ClientForms.build_of_errors checked] at accepted
    split at accepted
    next => cases accepted
    next none => exact complete.mp (not_not.mp none)
  · push Not at splits
    rw [ClientForms.build_of_raised (ClientForms.errors_invalid splits)] at accepted
    cases accepted

/-- What a form may name is what the provider advertises. -/
theorem built_advertised (env : Settings) {form : ClientForm} {built : ClientMetadata} {metadata : Metadata}
    (accepted : buildClientMetadata nfkc form = .ok built) (shows : Shows metadata built) :
    Advertised (wellKnown env) metadata := by
  obtain ⟨complete, read⟩ := build_complete accepted
  cases ClientForms.build_parsed accepted
  have words : ClientForms.words (parseScope form.scope) = (ClientForms.words (orElse form.scope "")).eraseDups :=
    ClientForms.words_parseScope form.scope
  refine ⟨⟨_, shows .clientName trivial, complete.name⟩, ⟨_, shows .redirectUris trivial, complete.redirects, ?_⟩,
    ⟨_, shows .grantTypes trivial, complete.authorizationCode, complete.supportedGrants⟩,
    ⟨_, shows .responseTypes trivial, complete.responses, ?_⟩, ⟨_, shows .scope trivial, ?_, ?_, ?_⟩,
    ⟨_, shows .tokenEndpointAuthMethod trivial, ?_⟩⟩
  · intro uri member
    exact read uri (List.mem_append_right _ member)
  · intro response member
    exact List.mem_singleton.mpr (complete.code response member)
  · intro empty
    exact complete.scopes (eraseDups_eq_nil.mp (words.symm.trans empty))
  · exact (ClientForms.parsed_normal form).scopeNodup
  · intro word member
    exact complete.supportedScopes word (List.mem_eraseDups.mp (words ▸ member))
  · have either : form.authMethod ∈ supportedAuthMethods := complete.method
    simp only [supportedAuthMethods, List.mem_cons, List.not_mem_nil, or_false] at either
    rcases either with method | method | method
    · exact List.mem_cons.mpr (.inl method)
    · exact List.mem_cons_of_mem _ (List.mem_cons_of_mem _ (List.mem_singleton.mpr method))
    · exact List.mem_cons_of_mem _ (List.mem_cons.mpr (.inl method))

theorem Advertised.alike {config : OpenIdConfiguration} {metadata source : Metadata} (advertised : Advertised config source)
    (same : ∀ key, FormKey key → metadata.get key = source.get key) : Advertised config metadata where
  name := same .clientName trivial ▸ advertised.name
  redirects := same .redirectUris trivial ▸ advertised.redirects
  grants := same .grantTypes trivial ▸ advertised.grants
  responses := same .responseTypes trivial ▸ advertised.responses
  scopes := same .scope trivial ▸ advertised.scopes
  method := same .tokenEndpointAuthMethod trivial ▸ advertised.method

/-- No order of the pages' actions leaves a client with metadata that are incomplete or
that the discovery document does not advertise. -/
theorem clients_advertised (env : Settings) (start : ∀ row ∈ shared.clients.rows, Advertised (wellKnown env) row.clientMetadata)
    (executed : run (step nfkc) (initial shared) events = some final) {row : RegisteredClient}
    (stored : row ∈ final.shared.clients.rows) : Advertised (wellKnown env) row.clientMetadata := by
  rcases row_traced executed stored with ⟨before, member, -, same⟩ | ⟨_, _, _, _, -, -, form, built, -, accepted, shows⟩
  · exact (start before member).alike same
  · exact built_advertised env accepted shows

end runs

/-- User 8 is a developer. -/
def developers : Shared where
  clients := ⟨[], List.nodup_nil⟩
  permissions :=
    [{ userId := 8, grantedBy := none, id := 3, permissionType := .developer, expirationDate := none, reason := none }]

/-- Two pages have the client; one saves a form, and the other, which does not know it,
disables the client. -/
def stale : List (Nat × Input) :=
  [(0, .createClientPage (some 8) 4000000),
    (0, .submit (appForm "client_secret_post") 1 "xyz" ⟨"u", by decide⟩ 4000000),
    (1, .dashboardDeveloper (some 8) 4500000),
    (2, .dashboardDeveloper (some 8) 4600000),
    (1, .act 1 (.edit (appForm "none") ⟨"v", by decide⟩ ⟨4700000, by decide⟩ ⟨4700000, by decide⟩)),
    (2, .act 1 (.toggle ⟨4800000, by decide⟩))]

def afterStale : World Shared Tab := (run (step id) (initial developers) stale).getD (initial developers)

theorem afterStale_reached : run (step id) (initial developers) stale = some afterStale := rfl

theorem stale_unmixed :
    ∃ row ∈ afterStale.shared.clients.rows,
      row.clientMetadata.get .tokenEndpointAuthMethod = some (.str "client_secret_post") ∧ row.clientSecret = "" ∧
      ((∃ before ∈ developers.clients.rows, before.id = row.id ∧
        ∀ key, FormKey key → row.clientMetadata.get key = before.clientMetadata.get key) ∨
        Occurred (step id) (initial developers) stale (ShownBy id row)) :=
  ⟨_, List.mem_cons_self, rfl, rfl, forms_unmixed afterStale_reached List.mem_cons_self⟩

theorem stale_advertised : ∃ row ∈ afterStale.shared.clients.rows, Advertised (wellKnown {}) row.clientMetadata :=
  ⟨_, List.mem_cons_self, clients_advertised {} (List.forall_mem_nil _) afterStale_reached List.mem_cons_self⟩

end Satoidc.Proofs.StoredForms
