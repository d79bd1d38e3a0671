import Satoidc.KeyAdmin
import Satoidc.Foundation.Provenance
import Satoidc.Proofs.DeveloperAccess
import Satoidc.Proofs.KeyRows

/-! Who changes the signing keys. Whatever requests run at once, the log names for each
change an administrator who was admitted before it, or the system where it found no
active key; and no stored key changes without an event. -/

namespace Satoidc.Proofs.KeyAuthority
open Foundation KeyAdmin KeyRows

/-- The actor that a part of a call writes into its events; a part that only reads has
none and writes no event of `asked`. -/
def actorOf (asked : String) : KeyRace.Input → String
  | .create _ _ actor | .rotate _ _ actor | .activate actor | .retire actor => actor
  | .bootstrap _ _ => "system"
  | .refresh | .ensure | .readKey _ _ | .readActives | .readExpired _ => asked

/-- The events of a new key. -/
def IsCreation (kind : KeyEvent) : Prop := kind = .created ∨ kind = .activated

/-- The events of a key that changes. -/
def IsChange (kind : KeyEvent) : Prop := kind = .activated ∨ kind = .demotedToValidating ∨ kind = .retired

/-- The events that a part of a call appends are its actor's, and a stored row that it
changes has one of them. -/
def Logs (actor : String) (store after : KeyStore) (events : List OidcSigningKeyAuditEvent) : Prop :=
  after.audit = store.audit ++ events ∧ (∀ event ∈ events, event.actor = actor ∧ event.event ≠ .tokenSigned) ∧
    ∀ row ∈ store.keys.rows, row ∈ after.keys.rows ∨ ∃ event ∈ events, event.kid = row.kid ∧ IsChange event.event

/-- The part of a call stores a new key at most. -/
def Creates (actor : String) (store after : KeyStore) (events : List OidcSigningKeyAuditEvent) : Prop :=
  after.audit = store.audit ++ events ∧ (∀ event ∈ events, event.actor = actor ∧ IsCreation event.event) ∧
    ∀ row ∈ store.keys.rows, row ∈ after.keys.rows

section calls
variable {env : Settings} {fernet : Fernet} {store after : KeyStore} {call later : KeyRace.Phase} {input : KeyRace.Input}
  {actor : String} {events : List OidcSigningKeyAuditEvent}

theorem Creates.logs (creates : Creates actor store after events) : Logs actor store after events := by
  obtain ⟨audit, mine, kept⟩ := creates
  refine ⟨audit, ?_, fun row member => .inl (kept row member)⟩
  intro event member
  obtain ⟨author, kind⟩ := mine event member
  refine ⟨author, ?_⟩
  intro signed
  rw [signed] at kind
  rcases kind with same | same <;> cases same

theorem Creates.idle (actor : String) (store : KeyStore) : Creates actor store store [] :=
  ⟨(List.append_nil _).symm, nofun, fun _ member => member⟩

theorem createdEvents_creation {status : KeyStatus} {kid : String} {event : OidcSigningKeyAuditEvent}
    (member : event ∈ createdEvents status kid actor) : event.actor = actor ∧ IsCreation event.event := by
  unfold createdEvents at member
  split at member
  next =>
    rcases List.mem_cons.mp member with rfl | last
    · exact ⟨rfl, .inl rfl⟩
    · cases List.mem_singleton.mp last
      exact ⟨rfl, .inr rfl⟩
  next =>
    cases List.mem_singleton.mp member
    exact ⟨rfl, .inl rfl⟩

theorem created_creates {generated : Generated} {now : Instant} {status : KeyStatus} {next : OidcSigningKey → KeyRace.Phase}
    (taken : KeyRace.created store next (createSigningKey env fernet generated now store status actor) = (after, later)) :
    ∃ events, Creates actor store after events := by
  cases made : createSigningKey env fernet generated now store status actor with
  | error raised => rw [made] at taken; cases taken; exact ⟨[], .idle actor store⟩
  | ok pair =>
    obtain ⟨row, stored⟩ := pair
    rw [made] at taken
    cases taken
    obtain ⟨-, rows, audit⟩ := createSigningKey_ok.mp made
    refine ⟨_, audit, fun _ member => createdEvents_creation member, ?_⟩
    intro old member
    rw [rows]
    exact List.mem_append_left _ member

theorem activateWrite_logs {now : Instant} {key : OidcSigningKey} {actives : List OidcSigningKey} :
    ∃ events, Logs actor store (activateWrite env now actor key actives store) events := by
  refine ⟨_, List.append_assoc .., ?_, ?_⟩
  · intro event member
    rcases List.mem_append.mp member with demoted | last
    · obtain ⟨active, -, rfl⟩ := List.mem_map.mp demoted
      exact ⟨rfl, nofun⟩
    · cases List.mem_singleton.mp last
      exact ⟨rfl, nofun⟩
  · intro row member
    by_cases target : row.kid = key.kid
    · exact .inr ⟨_, List.mem_append_right _ (List.mem_singleton.mpr rfl), target.symm, .inl rfl⟩
    · by_cases other : ∃ active ∈ actives, active.kid = row.kid
      · obtain ⟨active, inside, same⟩ := other
        have demoted : active ∈ actives.filter fun active => active.kid ≠ key.kid :=
          List.mem_filter.mpr ⟨inside, decide_eq_true (same ▸ target)⟩
        exact .inr ⟨_, List.mem_append_left _ (List.mem_map.mpr ⟨active, demoted, rfl⟩), same, .inr (.inl rfl)⟩
      · left
        exact mem_activateWrite.mpr ⟨row, member, activateRow_other target other⟩

theorem retireWrite_logs {now : Instant} {expired : List OidcSigningKey} :
    ∃ events, Logs actor store (retireWrite now actor expired store) events := by
  refine ⟨_, rfl, ?_, ?_⟩
  · intro event member
    obtain ⟨key, -, rfl⟩ := List.mem_map.mp member
    exact ⟨rfl, nofun⟩
  · intro row member
    cases found : lookup OidcSigningKey.kid expired row.kid with
    | none =>
      left
      refine mem_retireWrite.mpr ⟨row, member, ?_⟩
      rw [retireRow, found]
    | some key =>
      obtain ⟨inside, same⟩ := mem_of_lookup found
      exact .inr ⟨_, List.mem_map.mpr ⟨key, inside, rfl⟩, same, .inr (.inr rfl)⟩

theorem advance_logs {mover : Nat} (asked : String)
    (taken : KeyRace.advance env fernet mover input store call = some (after, later)) :
    ∃ events, Logs (actorOf asked input) store after events := by
  have idle : ∃ events, Logs (actorOf asked input) store store events := ⟨[], (Creates.idle _ store).logs⟩
  unfold KeyRace.advance at taken
  split at taken
  next => exact (created_creates (Option.some.inj taken)).imp fun _ creates => creates.logs
  next => exact (created_creates (Option.some.inj taken)).imp fun _ creates => creates.logs
  next => cases taken; exact idle
  next => cases taken; exact idle
  next => exact (created_creates (Option.some.inj taken)).imp fun _ creates => creates.logs
  next => cases taken; exact idle
  next =>
    split at taken
    next => cases taken; exact idle
    next => cases taken
  next => cases taken; exact idle
  next => cases taken; exact activateWrite_logs
  next => cases taken; exact idle
  next => cases taken; exact retireWrite_logs
  next => cases taken

/-- A part of `ensure_active_signing_key` creates a key only behind one that found none. -/
theorem ensures_creates {mover : Nat} (part : ensures call input = true)
    (taken : KeyRace.advance env fernet mover input store call = some (after, later)) :
    ∃ events, Creates "system" store after events ∧ (events ≠ [] → call = .bootstrapping) := by
  unfold ensures at part
  split at part
  next => cases taken; exact ⟨[], .idle _ store, fun some => absurd rfl some⟩
  next =>
    obtain ⟨events, creates⟩ := created_creates (Option.some.inj taken)
    exact ⟨events, creates, fun _ => rfl⟩
  next => cases part

/-- A call is about to store a first key only if no key was active when it looked. -/
theorem bootstrapping_ensure {mover : Nat}
    (taken : KeyRace.advance env fernet mover input store call = some (after, .bootstrapping)) :
    input = .ensure ∧ store.activeKeys = [] := by
  have created {result : Except PyError (OidcSigningKey × KeyStore)} {next : OidcSigningKey → KeyRace.Phase}
      (other : ∀ row, next row ≠ .bootstrapping) : KeyRace.created store next result ≠ (after, .bootstrapping) := by
    intro same
    cases result with
    | error raised => cases same
    | ok pair => exact other pair.1 (Prod.mk.inj same).2
  have reading {row : Option OidcSigningKey} {kid : String} {now : Instant} :
      KeyRace.reading (.found · now) (activatable kid row) ≠ .bootstrapping := by
    cases activatable kid row <;> exact nofun
  unfold KeyRace.advance at taken
  split at taken
  next => exact absurd (Option.some.inj taken) (created fun _ => nofun)
  next => exact absurd (Option.some.inj taken) (created fun _ => nofun)
  next kid =>
    have same := (Prod.mk.inj (Option.some.inj taken)).2
    cases found : store.keyByKid kid <;> rw [found] at same <;> cases same
  next =>
    have same := (Prod.mk.inj (Option.some.inj taken)).2
    split at same
    next none => exact ⟨rfl, none⟩
    next => cases same
  next => exact absurd (Option.some.inj taken) (created fun _ => nofun)
  next => exact absurd (Prod.mk.inj (Option.some.inj taken)).2 reading
  next =>
    split at taken
    next => exact absurd (Prod.mk.inj (Option.some.inj taken)).2 reading
    next => cases taken
  next => cases taken
  next => cases taken
  next => cases taken
  next => cases taken
  next => cases taken

theorem makes_actor {task : Task} (part : task.makes actor call input = true) :
    (task = .list ∧ ensures call input = true) ∨ actorOf actor input = actor := by
  unfold Task.makes at part
  split at part
  next => exact .inl ⟨rfl, part⟩
  all_goals right
  all_goals first | rfl | exact of_decide_eq_true part | cases part

end calls

/-- The user whose request is behind a phase, if it was admitted. -/
def admittedAs : Phase → Option UserId
  | .admitted uid _ _ => some uid
  | .start | .ensuring _ | .finished => none

/-- The request has found no active key and goes on to store one. -/
def Bootstraps : Phase → Prop
  | .admitted _ _ .bootstrapping | .ensuring .bootstrapping => True
  | _ => False

/-- The input is a request of a user who is an administrator or root at that moment. -/
def Admits (service : Service) (input : Input) (uid : UserId) : Prop :=
  ∃ now task, input = .admin (some uid) now task ∧ ∃ permission ∈ service.permissions,
    permission.userId = uid ∧ permission.active now = true ∧
      (permission.permissionType = .admin ∨ permission.permissionType = .root)

/-- The input looks for an active key where there is none. -/
def FindsNone (service : Service) (input : Input) : Prop := input = .call .ensure ∧ service.keys.activeKeys = []

theorem requireKeyAdmin_ok {now : Instant} {permissions : List Permission} {userId : Option UserId} {uid : UserId}
    (passed : requireKeyAdmin now permissions userId = .ok uid) : userId = some uid ∧ ∃ permission ∈ permissions,
      permission.userId = uid ∧ permission.active now = true ∧
        (permission.permissionType = .admin ∨ permission.permissionType = .root) := by
  cases userId with
  | none => cases passed
  | some user =>
    simp only [requireKeyAdmin] at passed
    split at passed
    next authorized =>
      cases passed
      rw [DeveloperAccess.getActiveUserPermissions_eq, DeveloperAccess.getActivePermissionsForUser_eq] at authorized
      have required : [PermissionsEnum.admin.value, PermissionsEnum.root.value] =
          [PermissionsEnum.admin, PermissionsEnum.root].map PermissionsEnum.value := rfl
      rw [required, DeveloperAccess.isAuthorized_eq] at authorized
      have held : ∃ type ∈ getActivePermissionsForUser now uid permissions, type = .admin ∨ type = .root := by
        simp only [isAuthorized, List.any_cons, List.any_nil, Bool.or_false, Bool.or_eq_true, decide_eq_true_eq] at authorized
        rcases authorized with root | admin | root
        · exact ⟨_, root, .inr rfl⟩
        · exact ⟨_, admin, .inl rfl⟩
        · exact ⟨_, root, .inr rfl⟩
      obtain ⟨type, member, rank⟩ := held
      obtain ⟨permission, stored, rfl⟩ := List.mem_map.mp member
      obtain ⟨inside, matched⟩ := List.mem_filter.mp stored
      simp only [Bool.and_eq_true, decide_eq_true_eq] at matched
      exact ⟨rfl, permission, inside, matched.1, matched.2, rank⟩
    next => cases passed

/-- What a step does, and on whose authority. -/
structure Traces (str : UserId → String) (service : Service) (phase : Phase) (input : Input) (after : Service) (later : Phase) :
    Prop where
  authority : ∀ uid, admittedAs later = some uid → admittedAs phase = some uid ∨ Admits service input uid
  vacancy : Bootstraps later → Bootstraps phase ∨ FindsNone service input
  logs : ∃ events, after.keys.audit = service.keys.audit ++ events ∧
    (∀ event ∈ events, (∃ uid, admittedAs phase = some uid ∧ event.actor = str uid ∧ event.event ≠ .tokenSigned) ∨
      (Bootstraps phase ∧ event.actor = "system" ∧ IsCreation event.event) ∨
      (event.event = .tokenSigned ∧ event.actor = "system")) ∧
    ∀ row ∈ service.keys.keys.rows, row ∈ after.keys.keys.rows ∨ ∃ uid, admittedAs phase = some uid ∧
      ∃ event ∈ events, event.actor = str uid ∧ event.kid = row.kid ∧ IsChange event.event

section step
variable {env : Settings} {fernet : Fernet} {str : UserId → String} {service after : Service} {phase later : Phase}
    {input : Input}

/-- A step that leaves the keys alone. -/
theorem Traces.quiet (keys : after.keys = service.keys)
    (authority : ∀ uid, admittedAs later = some uid → admittedAs phase = some uid ∨ Admits service input uid)
    (vacancy : Bootstraps later → Bootstraps phase ∨ FindsNone service input) : Traces str service phase input after later where
  authority := authority
  vacancy := vacancy
  logs := ⟨[], by rw [keys, List.append_nil], nofun, fun row member => .inl (keys ▸ member)⟩

theorem list_traces {mover : Nat} {call next : KeyRace.Phase} {part : KeyRace.Input} {keys : KeyStore}
    (ensured : ensures call part = true) (taken : KeyRace.advance env fernet mover part service.keys call = some (keys, next))
    (same : admittedAs later = admittedAs phase) (own : call = .bootstrapping → Bootstraps phase)
    (goes : Bootstraps later → next = .bootstrapping) :
    Traces str service phase (.call part) { service with keys } later := by
  obtain ⟨events, ⟨audit, mine, kept⟩, vacant⟩ := ensures_creates ensured taken
  refine ⟨fun uid admitted => .inl (same ▸ admitted), ?_, events, audit, ?_, fun row member => .inl (kept row member)⟩
  · intro bootstraps
    cases goes bootstraps
    obtain ⟨rfl, none⟩ := bootstrapping_ensure taken
    exact .inr ⟨rfl, none⟩
  · intro event member
    exact .inr (.inl ⟨own (vacant (List.ne_nil_of_mem member)), mine event member⟩)

theorem admitted_traces {mover : Nat} {uid : UserId} {task : Task} {call next : KeyRace.Phase} {part : KeyRace.Input}
    {keys : KeyStore} (mine : actorOf (str uid) part = str uid)
    (taken : KeyRace.advance env fernet mover part service.keys call = some (keys, next)) :
    Traces str service (.admitted uid task call) (.call part) { service with keys } (.admitted uid task next) := by
  obtain ⟨events, audit, written, changed⟩ := advance_logs (str uid) taken
  rw [mine] at written
  refine ⟨fun _ same => .inl same, ?_, events, audit, ?_, ?_⟩
  · intro bootstraps
    cases next with
    | bootstrapping =>
      obtain ⟨rfl, none⟩ := bootstrapping_ensure taken
      exact .inr ⟨rfl, none⟩
    | _ => cases bootstraps
  · intro event member
    exact .inl ⟨uid, rfl, written event member⟩
  · intro row member
    rcases changed row member with kept | ⟨event, inside, about, kind⟩
    · exact .inl kept
    · exact .inr ⟨uid, rfl, event, inside, (written event inside).1, about, kind⟩

theorem advance_traces {mover : Nat} (taken : advance env fernet str mover input service phase = some (after, later)) :
    Traces str service phase input after later := by
  unfold advance at taken
  split at taken
  next =>
    split at taken
    next passed =>
      cases taken
      refine .quiet rfl ?_ nofun
      intro uid same
      cases same
      obtain ⟨rfl, permission⟩ := requireKeyAdmin_ok passed
      exact .inr ⟨_, _, rfl, permission⟩
    next => cases taken; exact .quiet rfl nofun nofun
  next => cases taken; exact .quiet rfl nofun nofun
  next =>
    split at taken
    next part =>
      obtain ⟨moved, calls, same⟩ := Option.map_eq_some_iff.mp taken
      cases same
      rcases makes_actor part with ⟨rfl, ensured⟩ | mine
      · refine list_traces ensured calls rfl ?_ ?_
        · rintro rfl
          trivial
        · intro bootstraps
          obtain ⟨keys, next⟩ := moved
          cases next with
          | bootstrapping => rfl
          | _ => cases bootstraps
      · exact admitted_traces mine calls
    next => cases taken
  next =>
    split at taken
    next ensured =>
      obtain ⟨moved, calls, same⟩ := Option.map_eq_some_iff.mp taken
      cases same
      refine list_traces ensured calls rfl ?_ ?_
      · rintro rfl
        trivial
      · intro bootstraps
        obtain ⟨keys, next⟩ := moved
        cases next with
        | bootstrapping => rfl
        | _ => cases bootstraps
    next => cases taken
  next kid _ =>
    split at taken
    next =>
      cases taken
      refine ⟨nofun, nofun, _, rfl, ?_, fun row member => .inl member⟩
      intro event member
      cases List.mem_singleton.mp member
      exact .inr (.inr ⟨rfl, rfl⟩)
    next => cases taken
  next => cases taken; exact .quiet rfl (fun _ same => .inl same) .inl
  next => cases taken

end step

/-- What a log may go back to. -/
inductive Item where
  | authority (index : Nat) (uid : UserId)
  | vacancy
  | event (event : OidcSigningKeyAuditEvent)

def Covers (str : UserId → String) : Item → Item → Prop
  | .event event, .authority _ uid => event.actor = str uid
  | .event event, .vacancy => event.actor = "system" ∧ IsCreation event.event
  | item, source => item = source

def Holds (world : World Service Phase) : Item → Prop
  | .authority index uid => admittedAs (world.sessions index) = some uid
  | .vacancy => ∃ index, Bootstraps (world.sessions index)
  | .event event => event ∈ world.shared.keys.audit

def Causes (world : World Service Phase) (event : Nat × Input) : Item → Prop
  | .authority index uid => event.1 = index ∧ Admits world.shared event.2 uid
  | .vacancy => FindsNone world.shared event.2
  | .event logged => logged.event = .tokenSigned ∧ logged.actor = "system"

section runs
variable {env : Settings} {fernet : Fernet} {str : UserId → String} {service : Service} {events : List (Nat × Input)}
  {final : World Service Phase}

theorem covers_refl (item : Item) : Covers str item item := by
  cases item <;> rfl

theorem covers_trans {item middle source : Item} (first : Covers str item middle) (second : Covers str middle source) :
    Covers str item source := by
  cases middle with
  | authority index uid => cases source <;> cases second; exact first
  | vacancy => cases source <;> cases second; exact first
  | event logged =>
    cases item <;> cases first
    exact second

theorem step_traces {world next : World Service Phase} {event : Nat × Input}
    (taken : step env fernet str world event = some next) :
    Traces str world.shared (world.sessions event.1) event.2 next.shared (next.sessions event.1) ∧
      ∀ index, index ≠ event.1 → next.sessions index = world.sessions index := by
  obtain ⟨shared, session, moved, rfl⟩ := World.step_some.mp taken
  rw [World.moved_shared, World.moved_self]
  exact ⟨advance_traces moved, fun index other => World.moved_other _ _ _ other⟩

theorem provenance (env : Settings) (fernet : Fernet) (str : UserId → String) :
    Provenance (step env fernet str) (Covers str) Holds Causes where
  refl := covers_refl
  trans := covers_trans
  traced := by
    intro world event next item taken held
    obtain ⟨traces, others⟩ := step_traces taken
    cases item with
    | authority index uid =>
      refine ⟨.authority index uid, rfl, ?_⟩
      by_cases mine : index = event.1
      · subst mine
        rcases traces.authority uid held with before | now
        · exact .inl before
        · exact .inr ⟨rfl, now⟩
      · rw [Holds, others index mine] at held
        exact .inl held
    | vacancy =>
      refine ⟨.vacancy, rfl, ?_⟩
      obtain ⟨index, vacant⟩ := held
      by_cases mine : index = event.1
      · rw [mine] at vacant
        rcases traces.vacancy vacant with before | now
        · exact .inl ⟨event.1, before⟩
        · exact .inr now
      · exact .inl ⟨index, others index mine ▸ vacant⟩
    | event logged =>
      obtain ⟨appended, audit, backed, -⟩ := traces.logs
      rw [Holds, audit] at held
      rcases List.mem_append.mp held with old | new
      · exact ⟨.event logged, rfl, .inl old⟩
      · rcases backed logged new with ⟨uid, admitted, actor, -⟩ | ⟨vacant, author⟩ | signed
        · exact ⟨.authority event.1 uid, actor, .inl admitted⟩
        · exact ⟨.vacancy, author, .inl ⟨event.1, vacant⟩⟩
        · exact ⟨.event logged, rfl, .inr signed⟩

/-- A request that acts for a user was itself admitted for that user. -/
theorem authority_admitted (executed : run (step env fernet str) (initial service) events = some final)
    {index : Nat} {uid : UserId}
    (admitted : admittedAs (final.sessions index) = some uid) :
    Occurred (step env fernet str) (initial service) events
      fun world event => event.1 = index ∧ Admits world.shared event.2 uid := by
  have held : Holds final (.authority index uid) := admitted
  obtain ⟨source, covers, first | occurred⟩ := (provenance env fernet str).run executed held
  · cases source <;> cases covers
    cases first
  · cases source <;> cases covers
    exact occurred

/-- Every event of the log is the signing of a token, the creation of a key by the
system after a request found none active, or the act of a user who was admitted as
an administrator before. -/
theorem events_authorized (executed : run (step env fernet str) (initial service) events = some final)
    {logged : OidcSigningKeyAuditEvent} (member : logged ∈ final.shared.keys.audit) :
    logged ∈ service.keys.audit ∨ (logged.event = .tokenSigned ∧ logged.actor = "system") ∨
      (logged.actor = "system" ∧ IsCreation logged.event ∧
        Occurred (step env fernet str) (initial service) events fun world event => FindsNone world.shared event.2) ∨
      ∃ uid, logged.actor = str uid ∧
        Occurred (step env fernet str) (initial service) events fun world event => Admits world.shared event.2 uid := by
  obtain ⟨source, covers, first | occurred⟩ :=
    (provenance env fernet str).run executed (show Holds final (.event logged) from member)
  · cases source with
    | authority index uid => cases first
    | vacancy =>
      obtain ⟨_, impossible⟩ := first
      cases impossible
    | event old => cases covers; exact .inl first
  · cases source with
    | authority index uid =>
      exact .inr (.inr (.inr ⟨uid, covers, occurred.mono fun _ _ admits => admits.2⟩))
    | vacancy => exact .inr (.inr (.inl ⟨covers.1, covers.2, occurred⟩))
    | event old =>
      cases covers
      obtain ⟨_, _, _, _, -, -, signed⟩ := occurred
      exact .inr (.inl signed)

/-- No stored key changes in silence: the step that changes it belongs to the request of
a user who was admitted as an administrator, and logs the change under that user. -/
theorem changes_logged {past : List (Nat × Input)} {world next : World Service Phase} {event : Nat × Input}
    (executed : run (step env fernet str) (initial service) past = some world)
    (taken : step env fernet str world event = some next) {row : OidcSigningKey} (stored : row ∈ world.shared.keys.keys.rows)
    (changed : row ∉ next.shared.keys.keys.rows) :
    ∃ uid appended, admittedAs (world.sessions event.1) = some uid ∧
      next.shared.keys.audit = world.shared.keys.audit ++ appended ∧
      (∃ logged ∈ appended, logged.actor = str uid ∧ logged.kid = row.kid ∧ IsChange logged.event) ∧
      Occurred (step env fernet str) (initial service) past
        fun world earlier => earlier.1 = event.1 ∧ Admits world.shared earlier.2 uid := by
  obtain ⟨traces, -⟩ := step_traces taken
  obtain ⟨appended, audit, -, rows⟩ := traces.logs
  obtain ⟨uid, admitted, logged⟩ := (rows row stored).resolve_left changed
  exact ⟨uid, appended, admitted, audit, logged, authority_admitted executed admitted⟩

end runs

def firstKey : Generated := ⟨⟨"kid-1", "n-1", "AQAB", "d-1"⟩, 1⟩

def secondKey : Generated := ⟨⟨"kid-2", "n-2", "AQAB", "d-2"⟩, 2⟩

def openFernet : Fernet where
  encrypt _ key := key.d
  decrypt token := [firstKey.key, secondKey.key].find? fun key => key.d = token

def actorName (uid : UserId) : String := if uid = 1 then "administrator" else "user"

/-- User 1 is an administrator. -/
def oneAdmin : Service where
  permissions := [{ userId := 1, grantedBy := none, id := 1, permissionType := .admin, expirationDate := none, reason := none }]
  keys := .empty

/-- The key set is asked for, and the administrator rotates its first key. -/
def beforeActivation : List (Nat × Input) :=
  [(0, .ensure), (0, .call .ensure), (0, .call (.bootstrap firstKey 5)), (1, .admin (some 1) 6 .rotate),
    (1, .call (.rotate secondKey 7 "administrator")), (1, .call .refresh), (1, .call (.readKey "kid-2" 8)),
      (1, .call .readActives)]

def activation : Nat × Input := (1, .call (.activate "administrator"))

def rotating : World Service Phase :=
  (run (step {} openFernet actorName) (initial oneAdmin) beforeActivation).getD (initial oneAdmin)

def rotated : World Service Phase := (step {} openFernet actorName rotating activation).getD rotating

theorem rotating_reached : run (step {} openFernet actorName) (initial oneAdmin) beforeActivation = some rotating := rfl

theorem rotated_next : step {} openFernet actorName rotating activation = some rotated := rfl

theorem rotated_reached : run (step {} openFernet actorName) (initial oneAdmin)
    (beforeActivation ++ [activation]) = some rotated := rfl

theorem demotion_authorized :
    let logged : OidcSigningKeyAuditEvent := ⟨.demotedToValidating, "kid-1", "administrator"⟩
    logged ∈ rotated.shared.keys.audit ∧
      (logged ∈ oneAdmin.keys.audit ∨ (logged.event = .tokenSigned ∧ logged.actor = "system") ∨
        (logged.actor = "system" ∧ IsCreation logged.event ∧
          Occurred (step {} openFernet actorName) (initial oneAdmin) (beforeActivation ++ [activation])
            fun world event => FindsNone world.shared event.2) ∨
        ∃ uid, logged.actor = actorName uid ∧
          Occurred (step {} openFernet actorName) (initial oneAdmin) (beforeActivation ++ [activation])
            fun world event => Admits world.shared event.2 uid) := by
  have logged : ⟨.demotedToValidating, "kid-1", "administrator"⟩ ∈ rotated.shared.keys.audit := by
    have audit : rotated.shared.keys.audit =
        [⟨.created, "kid-1", "system"⟩, ⟨.activated, "kid-1", "system"⟩, ⟨.created, "kid-2", "administrator"⟩,
          ⟨.demotedToValidating, "kid-1", "administrator"⟩, ⟨.activated, "kid-2", "administrator"⟩] := rfl
    rw [audit]
    decide
  exact ⟨logged, events_authorized rotated_reached logged⟩

theorem demotion_logged :
    ∃ row ∈ rotating.shared.keys.keys.rows, row.kid = "kid-1" ∧
      ∃ uid appended, admittedAs (rotating.sessions 1) = some uid ∧
        rotated.shared.keys.audit = rotating.shared.keys.audit ++ appended ∧
        (∃ logged ∈ appended, logged.actor = actorName uid ∧ logged.kid = row.kid ∧ IsChange logged.event) ∧
        Occurred (step {} openFernet actorName) (initial oneAdmin) beforeActivation
          fun world earlier => earlier.1 = 1 ∧ Admits world.shared earlier.2 uid := by
  have changed : generateKeyRow {} openFernet firstKey .active 5 ∉ rotated.shared.keys.keys.rows := by decide
  exact ⟨_, List.mem_cons_self, rfl, changes_logged rotating_reached rotated_next List.mem_cons_self changed⟩

end Satoidc.Proofs.KeyAuthority
