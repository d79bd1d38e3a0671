import Satoidc.Foundation.Journal
import Satoidc.Foundation.Runs
import Satoidc.KeyCalls
import Satoidc.Proofs.KeyRows

/-! The audit events of a key tell its status. Every call appends the events of
the rows it changes, and no others. -/

namespace Satoidc.Proofs.KeyAudit
open Foundation KeyCalls KeyRows

/-- The status of a key after one of its events. -/
def replayed (held : Option KeyStatus) (event : OidcSigningKeyAuditEvent) : Option KeyStatus :=
  match event.event with
  | .created | .demotedToValidating => some .validating
  | .activated => some .active
  | .retired => some .retired
  | .tokenSigned => held

def Creates (event : OidcSigningKeyAuditEvent) : Prop := event.event = .created

/-- The log says of every key what the table stores, and begins with the creation
of each key it mentions. -/
structure Faithful (store : KeyStore) : Prop where
  status : ∀ kid, replay OidcSigningKeyAuditEvent.kid replayed store.audit kid =
    (store.keyByKid kid).map OidcSigningKey.status
  created : ∀ row ∈ store.keys.rows, OpenedOnce OidcSigningKeyAuditEvent.kid Creates store.audit row.kid
  stored : ∀ event ∈ store.audit, ∃ row ∈ store.keys.rows, row.kid = event.kid

variable {env : Settings} {fernet : Fernet} {generated : Generated} {now : Instant} {store after : KeyStore}
  {status : KeyStatus} {actor kid : String} {key row : OidcSigningKey}

theorem Faithful.empty : Faithful .empty where
  status _ := rfl
  created row member := by cases member
  stored event member := by cases member

/-- Events of stored keys, none of them a creation. -/
theorem Faithful.append {keys : Table OidcSigningKey (Keyed OidcSigningKey.kid)} {events : List OidcSigningKeyAuditEvent}
    (faithful : Faithful store) (same : keys.rows.map OidcSigningKey.kid = store.keys.rows.map OidcSigningKey.kid)
    (moves : ∀ kid, (eventsOf OidcSigningKeyAuditEvent.kid events kid).foldl replayed
      ((store.keyByKid kid).map OidcSigningKey.status) = (lookup OidcSigningKey.kid keys.rows kid).map OidcSigningKey.status)
    (known : ∀ event ∈ events, ¬ Creates event ∧ ∃ row ∈ store.keys.rows, row.kid = event.kid) :
    Faithful ⟨keys, store.audit ++ events⟩ := by
  have carry : ∀ kid, (∃ row ∈ keys.rows, row.kid = kid) ↔ ∃ row ∈ store.keys.rows, row.kid = kid := by
    intro kid
    rw [← List.mem_map, ← List.mem_map, same]
  refine ⟨?_, ?_, ?_⟩
  · exact Replays.append faithful.status moves
  · intro row member
    obtain ⟨old, oldMember, sameKid⟩ := (carry row.kid).mp ⟨row, member, rfl⟩
    have opened := faithful.created old oldMember
    rw [sameKid] at opened
    exact opened.append fun event inside _ => (known event inside).1
  · intro event member
    apply (carry event.kid).mpr
    rcases List.mem_append.mp member with old | new
    · exact faithful.stored event old
    · exact (known event new).2

theorem createdEvents_kid {event : OidcSigningKeyAuditEvent} (member : event ∈ createdEvents status kid actor) :
    event.kid = kid := by
  cases status <;> simp [createdEvents] at member
  case active => rcases member with rfl | rfl <;> rfl
  all_goals rw [member]

theorem createdEvents_own : eventsOf OidcSigningKeyAuditEvent.kid (createdEvents status kid actor) kid =
    createdEvents status kid actor :=
  List.filter_eq_self.mpr fun _ member => decide_eq_true (createdEvents_kid member)

theorem createdEvents_replayed (allowed : status ≠ .retired) :
    (createdEvents status kid actor).foldl replayed none = some status := by
  cases status with
  | validating | active => rfl
  | retired => exact absurd rfl allowed

theorem createdEvents_opened : OpenedOnce OidcSigningKeyAuditEvent.kid Creates (createdEvents status kid actor) kid := by
  rw [OpenedOnce, createdEvents_own]
  cases status with
  | validating | retired => exact ⟨⟨.created, kid, actor⟩, [], rfl, rfl, fun _ member => by cases member⟩
  | active => exact ⟨⟨.created, kid, actor⟩, [⟨.activated, kid, actor⟩], rfl, rfl, by simp [Creates]⟩

theorem Faithful.create (faithful : Faithful store) (allowed : status ≠ .retired)
    (made : createSigningKey env fernet generated now store status actor = .ok (row, after)) : Faithful after := by
  obtain ⟨made, rows, audit⟩ := createSigningKey_ok.mp made
  have keyed := after.keys.valid
  rw [rows] at keyed
  have fresh := (Keyed.append_singleton.mp keyed).2
  have unused : ∀ event ∈ store.audit, event.kid ≠ row.kid := by
    intro event member same
    obtain ⟨old, stored, sameKid⟩ := faithful.stored event member
    exact fresh old stored (sameKid.trans same)
  refine ⟨?_, ?_, ?_⟩
  · rw [audit]
    apply Replays.append faithful.status
    intro kid
    rw [KeyStore.keyByKid, KeyStore.keyByKid, rows, lookup_append_singleton]
    by_cases new : row.kid = kid
    · cases new
      rw [createdEvents_own, lookup_none.mpr fresh, Option.map_none, createdEvents_replayed allowed, Option.none_or,
        if_pos rfl, Option.map_some, made]
      rfl
    · have silent : eventsOf OidcSigningKeyAuditEvent.kid (createdEvents status row.kid actor) kid = [] :=
        eventsOf_eq_nil.mpr fun event member same => new ((createdEvents_kid member).symm.trans same)
      rw [silent, if_neg new, Option.or_none]
      rfl
  · intro other member
    rw [rows, List.mem_append, List.mem_singleton] at member
    rw [audit]
    rcases member with old | rfl
    · apply (faithful.created other old).append
      intro event inside about
      exact absurd (about.symm.trans (createdEvents_kid inside)) (fresh other old)
    · exact .fresh unused createdEvents_opened
  · intro event member
    rw [audit] at member
    rw [rows]
    rcases List.mem_append.mp member with old | new
    · obtain ⟨other, stored, same⟩ := faithful.stored event old
      exact ⟨other, List.mem_append_left _ stored, same⟩
    · exact ⟨row, List.mem_append_right _ List.mem_cons_self, (createdEvents_kid new).symm⟩

theorem mem_activeKeys : key ∈ store.activeKeys ↔ key ∈ store.keys.rows ∧ key.status = .active := by
  simp [KeyStore.activeKeys]

/-- Events of one kind about some keys, one each: replayed, they leave that kind's
status in those keys and nothing in the others. -/
theorem batch_replayed {event : KeyEvent} {value : KeyStatus}
    (writes : ∀ kid actor held, replayed held ⟨event, kid, actor⟩ = some value)
    (keys : List OidcSigningKey) (held : Option KeyStatus) :
    (eventsOf OidcSigningKeyAuditEvent.kid (keys.map fun key => ⟨event, key.kid, actor⟩) kid).foldl replayed held =
      if ∃ key ∈ keys, key.kid = kid then some value else held := by
  have same : ∀ inside ∈ eventsOf OidcSigningKeyAuditEvent.kid (keys.map fun key => ⟨event, key.kid, actor⟩) kid,
      ∀ held, replayed held inside = some value := by
    intro inside member held
    obtain ⟨key, -, rfl⟩ := List.mem_map.mp (mem_eventsOf.mp member).1
    exact writes key.kid actor held
  rw [foldl_writes same]
  by_cases mentioned : ∃ key ∈ keys, key.kid = kid
  · rw [if_pos mentioned, if_neg]
    intro silent
    obtain ⟨key, member, about⟩ := mentioned
    exact eventsOf_eq_nil.mp silent _ (List.mem_map_of_mem member) about
  · rw [if_neg mentioned, if_pos]
    apply eventsOf_eq_nil.mpr
    intro inside member about
    obtain ⟨key, listed, rfl⟩ := List.mem_map.mp member
    exact mentioned ⟨key, listed, about⟩

theorem activate_replayed (found : store.keyByKid key.kid = some key) (kid : String) :
    (eventsOf OidcSigningKeyAuditEvent.kid ((store.activeKeys.filter fun active => active.kid ≠ key.kid).map
        (fun active => ⟨.demotedToValidating, active.kid, actor⟩) ++ [⟨.activated, key.kid, actor⟩]) kid).foldl replayed
        ((store.keyByKid kid).map OidcSigningKey.status) =
      (store.keyByKid kid).map fun row => (activateRow env now key store.activeKeys row).status := by
  have target := (mem_of_lookup found).1
  rw [eventsOf_append, List.foldl_append, batch_replayed fun _ _ _ => rfl]
  by_cases own : key.kid = kid
  · cases own
    have spared : ¬ ∃ active ∈ store.activeKeys.filter fun active => active.kid ≠ key.kid, active.kid = key.kid := by
      rintro ⟨active, member, same⟩
      exact absurd same (by simpa using (List.mem_filter.mp member).2)
    rw [if_neg spared, found]
    simp only [Option.map_some, activateRow_target rfl]
    cases status : key.status <;> simp [eventsOf, replayed]
  · have silent : eventsOf OidcSigningKeyAuditEvent.kid [⟨.activated, key.kid, actor⟩] kid = [] :=
      eventsOf_eq_nil.mpr fun event member same => own (by cases List.mem_singleton.mp member; exact same)
    rw [silent, List.foldl_nil]
    cases held : store.keyByKid kid with
    | none =>
      rw [if_neg]
      · rfl
      · rintro ⟨active, member, same⟩
        exact lookup_none.mp held active (mem_activeKeys.mp (List.mem_filter.mp member).1).1 same
    | some row =>
      obtain ⟨member, same⟩ := mem_of_lookup held
      have apart : row.kid ≠ key.kid := fun equal => own (equal.symm.trans same)
      by_cases active : row.status = .active
      · rw [if_pos ⟨row, List.mem_filter.mpr ⟨mem_activeKeys.mpr ⟨member, active⟩, decide_eq_true apart⟩, same⟩,
          Option.map_some, activateRow_active member active apart]
        rfl
      · rw [if_neg, Option.map_some, Option.map_some, activateRow_inactive member active apart]
        rintro ⟨other, inside, sameKid⟩
        obtain ⟨stored, isActive⟩ := mem_activeKeys.mp (List.mem_filter.mp inside).1
        rw [store.keys.valid.unique stored member (sameKid.trans same.symm)] at isActive
        exact active isActive

theorem Faithful.activate (faithful : Faithful store) (found : store.keyByKid key.kid = some key) :
    Faithful (activateWrite env now actor key store.activeKeys store) := by
  have target := (mem_of_lookup found).1
  unfold activateWrite
  rw [List.append_assoc]
  refine faithful.append (update_keys (activateRow_kid env now key store.activeKeys)) ?_ ?_
  · intro kid
    rw [Table.update_rows, lookup_update (activateRow_kid env now key store.activeKeys)]
    simp only [ite_true, Option.map_map]
    exact activate_replayed found kid
  · intro event member
    simp only [List.mem_append, List.mem_map, List.mem_filter, List.mem_singleton] at member
    rcases member with ⟨active, ⟨inside, -⟩, rfl⟩ | rfl
    · exact ⟨KeyEvent.noConfusion, active, (mem_activeKeys.mp inside).1, rfl⟩
    · exact ⟨KeyEvent.noConfusion, key, target, rfl⟩

theorem retire_status (kid : String) :
    ((store.keyByKid kid).map fun row => (retireRow now (expiredKeys now store) row).status) =
      if ∃ key ∈ expiredKeys now store, key.kid = kid then some .retired
      else (store.keyByKid kid).map OidcSigningKey.status := by
  cases held : store.keyByKid kid with
  | none =>
    rw [if_neg]
    · rfl
    · rintro ⟨expired, member, same⟩
      exact lookup_none.mp held expired (List.mem_filter.mp member).1 same
  | some row =>
    obtain ⟨member, same⟩ := mem_of_lookup held
    simp only [Option.map_some, retireRow]
    cases loaded : lookup OidcSigningKey.kid (expiredKeys now store) row.kid with
    | none =>
      rw [if_neg]
      rintro ⟨expired, inside, about⟩
      exact lookup_none.mp loaded expired inside (about.trans same.symm)
    | some key =>
      obtain ⟨inside, about⟩ := mem_of_lookup loaded
      have validating := (List.mem_filter.mp inside).2
      simp only [Bool.and_eq_true, decide_eq_true_eq] at validating
      rw [if_pos ⟨key, inside, about.trans same⟩]
      simp [OidcSigningKey.flush, OidcSigningKey.retired, writeColumn, validating.1]

theorem Faithful.retire (faithful : Faithful store) : Faithful (retireWrite now actor (expiredKeys now store) store) := by
  refine faithful.append (update_keys (retireRow_kid now (expiredKeys now store))) ?_ ?_
  · intro kid
    rw [Table.update_rows, lookup_update (retireRow_kid now (expiredKeys now store)), batch_replayed fun _ _ _ => rfl]
    simp only [ite_true, Option.map_map]
    exact (retire_status kid).symm
  · intro event member
    obtain ⟨expired, inside, rfl⟩ := List.mem_map.mp member
    exact ⟨KeyEvent.noConfusion, expired, (List.mem_filter.mp inside).1, rfl⟩

theorem Faithful.tokenSigned (faithful : Faithful store) (known : store.keyByKid kid = some row) :
    Faithful (OpenIDCode.auditTokenSigned kid store) := by
  obtain ⟨member, same⟩ := mem_of_lookup known
  refine faithful.append rfl ?_ ?_
  · intro other
    by_cases about : kid = other
    · simp [eventsOf, about, replayed, KeyStore.keyByKid]
    · simp [eventsOf, about, KeyStore.keyByKid]
  · intro event inside
    cases List.mem_singleton.mp inside
    exact ⟨KeyEvent.noConfusion, row, member, same⟩

/-- A key that was just created as validating can be activated. -/
theorem activate_created (made : createSigningKey env fernet generated now store .validating actor = .ok (row, after))
    (activatedAt : Instant) :
    activateSigningKey env activatedAt row.kid after actor =
      .ok (row.activated activatedAt, activateWrite env activatedAt actor row after.activeKeys after) := by
  obtain ⟨rfl, rows, -⟩ := createSigningKey_ok.mp made
  have found : after.keyByKid generated.key.kid = some (generateKeyRow env fernet generated .validating now) := by
    refine (lookup_some after.keys.valid).mpr ⟨?_, rfl⟩
    rw [rows]
    exact List.mem_append_right _ List.mem_cons_self
  rw [activateSigningKey, show (generateKeyRow env fernet generated .validating now).kid = generated.key.kid from rfl, found]
  rfl

theorem mem_committing {result : Except PyError (OidcSigningKey × KeyStore)} {committed : KeyStore} :
    committed ∈ (committing result).commits ↔ ∃ row, result = .ok (row, committed) := by
  cases result with
  | error raised => exact ⟨fun impossible => (by cases impossible), fun ⟨_, impossible⟩ => (by cases impossible)⟩
  | ok pair =>
    constructor
    · intro member
      cases List.mem_singleton.mp member
      exact ⟨pair.1, rfl⟩
    · rintro ⟨row, same⟩
      cases same
      exact List.mem_singleton.mpr rfl

theorem committing_faithful {result : Except PyError (OidcSigningKey × KeyStore)}
    (returned : ∀ row after, result = .ok (row, after) → Faithful after) :
    ∀ committed ∈ (committing result).commits, Faithful committed := by
  intro committed member
  obtain ⟨row, made⟩ := mem_committing.mp member
  exact returned row committed made

theorem committing_raised {result : Except PyError (OidcSigningKey × KeyStore)} (raised : (committing result).raised ≠ none) :
    (committing result).commits = [] := by
  cases result with
  | error raised => rfl
  | ok pair => exact absurd rfl raised

theorem serve_faithful (faithful : Faithful store) {call : Call} (ready : enabled store call = true) :
    ∀ committed ∈ (serve env fernet store call).commits, Faithful committed := by
  cases call with
  | create generated status actor now =>
    exact committing_faithful fun row after made => faithful.create (by simpa [enabled] using ready) made
  | ensure generated now =>
    apply committing_faithful
    intro row after ensured
    unfold ensureActiveSigningKey at ensured
    split at ensured
    next => cases ensured; exact faithful
    next => exact faithful.create KeyStatus.noConfusion ensured
  | activate kid actor now =>
    apply committing_faithful
    intro row after activated
    obtain ⟨key, found, -, rfl⟩ := activateSigningKey_ok activated
    exact faithful.activate found
  | rotate generated actor createdAt activatedAt =>
    intro committed member
    simp only [serve] at member
    cases made : createSigningKey env fernet generated createdAt store .validating actor with
    | error raised => rw [made] at member; cases member
    | ok pair =>
      obtain ⟨row, created⟩ := pair
      rw [made] at member
      have between := faithful.create KeyStatus.noConfusion made
      rcases List.mem_cons.mp member with rfl | member
      · exact between
      · refine committing_faithful ?_ committed member
        intro key after activated
        obtain ⟨key, found, -, rfl⟩ := activateSigningKey_ok activated
        exact between.activate found
  | retire actor now =>
    intro committed member
    cases List.mem_singleton.mp member
    exact faithful.retire
  | tokenSigned kid =>
    intro committed member
    cases List.mem_singleton.mp member
    obtain ⟨row, known⟩ := Option.isSome_iff_exists.mp ready
    exact faithful.tokenSigned known

theorem serve_raised {call : Call} (raised : (serve env fernet store call).raised ≠ none) :
    (serve env fernet store call).commits = [] := by
  cases call with
  | create | ensure | activate => exact committing_raised raised
  | rotate generated actor createdAt activatedAt =>
    simp only [serve] at raised ⊢
    cases made : createSigningKey env fernet generated createdAt store .validating actor with
    | error => rfl
    | ok pair =>
      -- the second half finds the key that the first half has committed
      simp only [made, activate_created made activatedAt] at raised
      exact absurd rfl raised
  | retire | tokenSigned => exact absurd rfl raised

/-- A rotation returns what its second commit has stored. -/
theorem rotateSigningKey_serves {createdAt activatedAt : Instant}
    (rotated : rotateSigningKey env fernet generated createdAt activatedAt store actor = .ok (row, after)) :
    step env fernet store (.rotate generated actor createdAt activatedAt) = some after := by
  unfold rotateSigningKey at rotated
  cases made : createSigningKey env fernet generated createdAt store .validating actor with
  | error raised => rw [made] at rotated; cases rotated
  | ok pair =>
    obtain ⟨newKey, created⟩ := pair
    simp only [made, Bind.bind, Except.bind] at rotated
    simp [step, enabled, serve, made, rotated, committing]

theorem step_faithful {call : Call} {next : KeyStore} (faithful : Faithful store)
    (taken : step env fernet store call = some next) : Faithful next := by
  unfold step at taken
  split at taken
  next ready =>
    cases taken
    have place : (serve env fernet store call).commits.getLastD store ∈ store :: (serve env fernet store call).commits :=
      List.getLastD_mem_cons
    rcases List.mem_cons.mp place with same | member
    · rw [same]
      exact faithful
    · exact serve_faithful faithful ready _ member
  next => cases taken

/-- After any calls, and in every state that one more call commits, replaying the
audit events of each key in order gives the status that is stored for it, every
stored key has one `key.created` event, which is its first, and there are no
events of other keys; a call that raises commits nothing. -/
theorem audit_faithful (env : Settings) (fernet : Fernet) (calls : List Call) (store : KeyStore)
    (executed : run (step env fernet) .empty calls = some store) :
    Faithful store ∧ ∀ call, enabled store call = true →
      (∀ committed ∈ (serve env fernet store call).commits, Faithful committed) ∧
        ((serve env fernet store call).raised ≠ none → (serve env fernet store call).commits = [] ∧
          step env fernet store call = some store) := by
  have faithful : Faithful store := run_invariant Faithful (fun _ _ _ held taken => step_faithful held taken) .empty executed
  refine ⟨faithful, ?_⟩
  intro call ready
  refine ⟨serve_faithful faithful ready, ?_⟩
  intro raised
  have silent := serve_raised raised
  refine ⟨silent, ?_⟩
  rw [step, if_pos ready, silent]
  rfl

/-- A rotation whose clock goes back, a second activation of the active key, two calls that raise, and a retirement. -/
def keyCalls : List Call :=
  [.ensure ⟨⟨"kid-1", "n-1", "AQAB", "d-1"⟩, 1⟩ (seconds 0), .tokenSigned "kid-1",
    .rotate ⟨⟨"kid-2", "n-2", "AQAB", "d-2"⟩, 2⟩ "admin" (seconds 9) (seconds 4), .activate "kid-2" "admin" (seconds 5),
    .create ⟨⟨"kid-1", "n-1", "AQAB", "d-1"⟩, 3⟩ .active "admin" (seconds 6), .activate "kid-3" "admin" (seconds 6),
    .retire "admin" (seconds 9000)]

theorem keyCalls_audited : ∃ store, run (step {} ⟨fun _ key => key.d, fun _ => none⟩) .empty keyCalls = some store ∧
    replay OidcSigningKeyAuditEvent.kid replayed store.audit "kid-1" = some .retired ∧ store.audit.length = 8 ∧
    Faithful store := by
  refine ⟨_, rfl, rfl, rfl, ?_⟩
  exact (audit_faithful {} ⟨fun _ key => key.d, fun _ => none⟩ keyCalls _ rfl).1

end Satoidc.Proofs.KeyAudit
