import Mathlib.Logic.Relation
import Satoidc.Proofs.KeyAudit
import Satoidc.Proofs.KeyRaces

/-! What the instants of a signing key say about its status, over calls that run one
after another. A commit adds a key, activates one and demotes the others, or retires
what is due; every law below follows from what each of these does to one row. -/

namespace Satoidc.Proofs.KeyStates
open Foundation KeyCalls KeyRows KeyAudit KeyRaces

/-- For how long a key stays published after it was demoted. -/
def retention (env : Settings) : Int :=
  seconds (env.oauth2TokenExpiresIn + env.oidcJwksCacheTtlSeconds + env.oidcKeyRetentionMarginSeconds)

/-- A key that has been active and is not any more. -/
def Demoted (env : Settings) (row : OidcSigningKey) : Prop :=
  row.activatedAt ≠ none ∧ ∃ since, row.validatingSince = some since ∧ row.retiredAfter = some (since + retention env)

/-- The instants that go with the status of a key. -/
def Lawful (env : Settings) (row : OidcSigningKey) : Prop :=
  match row.status with
  | .active => row.activatedAt ≠ none ∧ row.validatingSince = none ∧ row.retiredAfter = none ∧ row.retiredAt = none
  | .validating => (row.activatedAt = none ∧ row.validatingSince = none ∧ row.retiredAfter = none ∨ Demoted env row) ∧
    row.retiredAt = none
  | .retired => Demoted env row ∧ ∃ after at', row.retiredAfter = some after ∧ row.retiredAt = some at' ∧ after < at'

/-- What a call can do to a stored key. -/
inductive Move (env : Settings) (row : OidcSigningKey) : OidcSigningKey → Prop where
  | kept : Move env row row
  | activated (now : Instant) (usable : row.status ≠ .retired) : Move env row (row.activated now)
  | demoted (now : Instant) (active : row.status = .active) : Move env row (row.demoted env now)
  | retired (now after : Instant) (validating : row.status = .validating) (due : row.retiredAfter = some after)
      (passed : after < now) : Move env row (row.retired now)

section rows
variable {env : Settings} {row later key : OidcSigningKey} {now : Instant}

theorem Move.lawful (move : Move env row later) (lawful : Lawful env row) : Lawful env later := by
  cases move with
  | kept => exact lawful
  | activated now usable => exact ⟨Option.some_ne_none now, rfl, rfl, rfl⟩
  | demoted now active =>
    rw [Lawful, active] at lawful
    exact ⟨.inr ⟨lawful.1, now, rfl, rfl⟩, lawful.2.2.2⟩
  | retired now after validating due passed =>
    rw [Lawful, validating] at lawful
    rcases lawful.1 with ⟨-, -, unset⟩ | demoted
    · cases due.symm.trans unset
    · exact ⟨demoted, after, now, due, rfl, passed⟩

theorem Move.kid (move : Move env row later) : later.kid = row.kid := by
  cases move <;> rfl

theorem Move.marked (move : Move env row later) (marked : row.activatedAt ≠ none) : later.activatedAt ≠ none := by
  cases move with
  | kept | demoted | retired => exact marked
  | activated now usable => exact Option.some_ne_none now

theorem Move.retired_kept (move : Move env row later) (retired : row.status = .retired) : later = row := by
  cases move with
  | kept => rfl
  | activated now usable => exact absurd retired usable
  | demoted now active => cases active.symm.trans retired
  | retired now after validating _ _ => cases validating.symm.trans retired

end rows

/-- What a commit does to the stored keys. -/
inductive Effect (env : Settings) (store after : KeyStore) : Prop where
  | kept (rows : after.keys.rows = store.keys.rows)
  | created (row : OidcSigningKey) (rows : after.keys.rows = store.keys.rows ++ [row]) (lawful : Lawful env row)
      (only : row.status = .active → ∀ other ∈ store.keys.rows, other.status ≠ .active)
  | activated (key : OidcSigningKey) (change : OidcSigningKey → OidcSigningKey) (member : key ∈ store.keys.rows)
      (rows : after.keys.rows = store.keys.rows.map change) (moves : ∀ row ∈ store.keys.rows, Move env row (change row))
      (only : ∀ row ∈ store.keys.rows, (change row).status = .active ↔ row.kid = key.kid)
  | retired (change : OidcSigningKey → OidcSigningKey) (rows : after.keys.rows = store.keys.rows.map change)
      (moves : ∀ row ∈ store.keys.rows, Move env row (change row))
      (same : ∀ row ∈ store.keys.rows, (change row).status = .active ↔ row.status = .active)

def HasActive (store : KeyStore) : Prop := ∃ row ∈ store.keys.rows, row.status = .active

structure Orderly (env : Settings) (store : KeyStore) : Prop where
  lawful : ∀ row ∈ store.keys.rows, Lawful env row
  one : AtMostOneActive store

/-- What stays so once it is so: a key is active, a key is retired, a key has been active. -/
structure Follows (store after : KeyStore) : Prop where
  active : HasActive store → HasActive after
  retired : ∀ row ∈ store.keys.rows, row.status = .retired → row ∈ after.keys.rows
  marked : ∀ row ∈ store.keys.rows, row.activatedAt ≠ none →
    ∃ later ∈ after.keys.rows, later.kid = row.kid ∧ later.activatedAt ≠ none

theorem Follows.refl (store : KeyStore) : Follows store store where
  active := id
  retired _ member _ := member
  marked row member marked := ⟨row, member, rfl, marked⟩

theorem Follows.trans {first second third : KeyStore} (left : Follows first second) (right : Follows second third) :
    Follows first third where
  active held := right.active (left.active held)
  retired row member retired := right.retired row (left.retired row member retired) retired
  marked row member marked := by
    obtain ⟨middle, middleMember, middleKid, middleMarked⟩ := left.marked row member marked
    obtain ⟨later, laterMember, laterKid, laterMarked⟩ := right.marked middle middleMember middleMarked
    exact ⟨later, laterMember, laterKid.trans middleKid, laterMarked⟩

section effects
variable {env : Settings} {store after : KeyStore}

theorem Orderly.empty : Orderly env .empty where
  lawful _ member := by cases member
  one _ member := by cases member

theorem lawful_map {change : OidcSigningKey → OidcSigningKey} (lawful : ∀ row ∈ store.keys.rows, Lawful env row)
    (rows : after.keys.rows = store.keys.rows.map change) (moves : ∀ row ∈ store.keys.rows, Move env row (change row)) :
    ∀ row ∈ after.keys.rows, Lawful env row := by
  rw [rows]
  exact List.forall_mem_map.mpr fun row member => (moves row member).lawful (lawful row member)

theorem Effect.orderly (effect : Effect env store after) (orderly : Orderly env store) : Orderly env after := by
  cases effect with
  | kept rows => exact ⟨by rw [rows]; exact orderly.lawful, by unfold AtMostOneActive; rw [rows]; exact orderly.one⟩
  | created row rows lawful only =>
    refine ⟨?_, append_one orderly.one rows only⟩
    rw [rows]
    exact List.forall_mem_append.mpr ⟨orderly.lawful, List.forall_mem_singleton.mpr lawful⟩
  | activated key change member rows moves only =>
    refine ⟨lawful_map orderly.lawful rows moves, ?_⟩
    unfold AtMostOneActive
    rw [rows]
    simp only [List.forall_mem_map]
    intro first left second right firstActive secondActive
    -- whatever was active before, only the target is now
    have target := (only first left).mp firstActive
    have target' := (only second right).mp secondActive
    rw [store.keys.valid.unique left right (target.trans target'.symm)]
  | retired change rows moves same =>
    refine ⟨lawful_map orderly.lawful rows moves, ?_⟩
    unfold AtMostOneActive
    rw [rows]
    simp only [List.forall_mem_map]
    intro first left second right firstActive secondActive
    rw [orderly.one first left second right ((same first left).mp firstActive) ((same second right).mp secondActive)]

theorem follows_map {change : OidcSigningKey → OidcSigningKey} (rows : after.keys.rows = store.keys.rows.map change)
    (moves : ∀ row ∈ store.keys.rows, Move env row (change row)) (active : HasActive store → HasActive after) :
    Follows store after where
  active := active
  retired row member retired := by
    rw [rows, ← (moves row member).retired_kept retired]
    exact List.mem_map_of_mem member
  marked row member marked :=
    ⟨change row, by rw [rows]; exact List.mem_map_of_mem member, (moves row member).kid, (moves row member).marked marked⟩

theorem Effect.follows (effect : Effect env store after) : Follows store after := by
  cases effect with
  | kept rows =>
    refine ⟨?_, ?_, ?_⟩
    · unfold HasActive
      rw [rows]
      exact id
    · intro row member _
      rw [rows]
      exact member
    · intro row member marked
      exact ⟨row, by rw [rows]; exact member, rfl, marked⟩
  | created row rows _ _ =>
    have stays : ∀ old ∈ store.keys.rows, old ∈ after.keys.rows := by
      intro old member
      rw [rows]
      exact List.mem_append_left _ member
    exact ⟨fun ⟨old, member, active⟩ => ⟨old, stays old member, active⟩, fun old member _ => stays old member,
      fun old member marked => ⟨old, stays old member, rfl, marked⟩⟩
  | activated key change member rows moves only =>
    refine follows_map rows moves fun _ => ⟨change key, ?_, (only key member).mpr rfl⟩
    rw [rows]
    exact List.mem_map_of_mem member
  | retired change rows moves same =>
    apply follows_map rows moves
    rintro ⟨row, member, active⟩
    refine ⟨change row, ?_, (same row member).mpr active⟩
    rw [rows]
    exact List.mem_map_of_mem member

end effects

section calls
variable {env : Settings} {fernet : Fernet} {generated : Generated} {now : Instant} {store after : KeyStore}
  {actor kid : String} {row key : OidcSigningKey}

theorem create_effect (created : createSigningKey env fernet generated now store .validating actor = .ok (row, after)) :
    Effect env store after := by
  obtain ⟨rfl, rows, -⟩ := createSigningKey_ok.mp created
  exact .created _ rows ⟨.inl ⟨rfl, rfl, rfl⟩, rfl⟩ fun active => nomatch active

theorem ensure_effect (ensured : ensureActiveSigningKey env fernet generated now store = .ok (row, after)) :
    Effect env store after := by
  unfold ensureActiveSigningKey at ensured
  split at ensured
  next active found =>
    cases ensured
    exact .kept rfl
  next missing =>
    obtain ⟨rfl, rows, -⟩ := createSigningKey_ok.mp ensured
    have none' : store.activeKeys = [] := List.head?_eq_none_iff.mp missing
    apply Effect.created _ rows ⟨Option.some_ne_none now, rfl, rfl, rfl⟩
    intro _ other member active
    have listed := mem_activeKeys.mpr ⟨member, active⟩
    rw [none'] at listed
    cases listed

theorem activateRow_own (key : OidcSigningKey) (actives : List OidcSigningKey) :
    activateRow env now key actives key = key.activated now := by
  simp [activateRow, OidcSigningKey.flush, OidcSigningKey.activated]

theorem activateRow_moves (target : key ∈ store.keys.rows) (usable : key.status ≠ .retired) (member : row ∈ store.keys.rows) :
    Move env row (activateRow env now key store.activeKeys row) ∧
      ((activateRow env now key store.activeKeys row).status = .active ↔ row.kid = key.kid) := by
  by_cases same : row.kid = key.kid
  · cases store.keys.valid.unique member target same
    rw [activateRow_own]
    exact ⟨.activated now usable, iff_of_true rfl rfl⟩
  · by_cases active : row.status = .active
    · rw [activateRow_active member active same]
      exact ⟨.demoted now active, iff_of_false KeyStatus.noConfusion same⟩
    · rw [activateRow_inactive member active same]
      exact ⟨.kept, iff_of_false active same⟩

theorem activate_effect (activated : activateSigningKey env now kid store actor = .ok (row, after)) :
    Effect env store after ∧ HasActive after := by
  obtain ⟨key, found, usable, same⟩ := activateSigningKey_ok activated
  have target := (mem_of_lookup found).1
  cases same
  constructor
  · refine .activated key (activateRow env now key store.activeKeys) target ?_ ?_ ?_
    · simp [update]
    · exact fun row member => (activateRow_moves target usable member).1
    · exact fun row member => (activateRow_moves target usable member).2
  · exact ⟨key.activated now, mem_activateWrite.mpr ⟨key, target, activateRow_own key _⟩, rfl⟩

theorem retireRow_move (member : row ∈ store.keys.rows) : Move env row (retireRow now (expiredKeys now store) row) := by
  rcases retireRow_expired member with same | ⟨after, validating, due, passed, moved⟩
  · rw [same]
    exact .kept
  · rw [moved]
    exact .retired now after validating due passed

theorem retireRow_active (member : row ∈ store.keys.rows) :
    (retireRow now (expiredKeys now store) row).status = .active ↔ row.status = .active := by
  rcases retireRow_expired member with same | ⟨after, validating, due, passed, moved⟩
  · rw [same]
  · rw [moved, validating]
    exact iff_of_false KeyStatus.noConfusion KeyStatus.noConfusion

theorem retireWrite_rows (expired : List OidcSigningKey) :
    (retireWrite now actor expired store).keys.rows = store.keys.rows.map (retireRow now expired) := by
  simp [retireWrite, update]

theorem retire_effect : Effect env store (retireWrite now actor (expiredKeys now store) store) :=
  .retired _ (retireWrite_rows _) (fun _ member => retireRow_move member) fun _ member => retireRow_active member

theorem retire_activeKeys : (retireWrite now actor (expiredKeys now store) store).activeKeys = store.activeKeys := by
  rw [KeyStore.activeKeys, retireWrite_rows, List.filter_map]
  have selected : store.keys.rows.filter ((fun key => decide (key.status = .active)) ∘ retireRow now (expiredKeys now store)) =
      store.activeKeys := by
    apply List.filter_congr
    intro row member
    exact decide_eq_decide.mpr (retireRow_active member)
  rw [selected]
  refine (List.map_congr_left ?_).trans (List.map_id _)
  intro row listed
  obtain ⟨member, active⟩ := mem_activeKeys.mp listed
  rcases retireRow_expired member with same | ⟨_, validating, _⟩
  · exact same
  · cases active.symm.trans validating

/-- Keys are created with the default status. -/
def Default : Call → Prop
  | .create _ status _ _ => status = .validating
  | _ => True

/-- A call that makes a key active. -/
def Switches : Call → Prop
  | .activate _ _ _ | .rotate _ _ _ _ => True
  | _ => False

/-- A call that leaves an active key. -/
def Provides (call : Call) : Prop := Switches call ∨ ∃ generated now, call = .ensure generated now

theorem serve_reaches {call : Call} (default : Default call) :
    ∀ committed ∈ (serve env fernet store call).commits, Relation.ReflTransGen (Effect env) store committed := by
  intro committed member
  cases call with
  | create generated status actor now =>
    cases default
    obtain ⟨row, created⟩ := mem_committing.mp member
    exact .single (create_effect created)
  | ensure generated now =>
    obtain ⟨row, ensured⟩ := mem_committing.mp member
    exact .single (ensure_effect ensured)
  | activate kid actor now =>
    obtain ⟨row, activated⟩ := mem_committing.mp member
    exact .single (activate_effect activated).1
  | rotate generated actor createdAt activatedAt =>
    simp only [serve] at member
    split at member
    next => cases member
    next newKey created made =>
      have inserted : Relation.ReflTransGen (Effect env) store created := .single (create_effect made)
      rcases List.mem_cons.mp member with rfl | later
      · exact inserted
      · obtain ⟨row, activated⟩ := mem_committing.mp later
        exact inserted.tail (activate_effect activated).1
  | retire actor now =>
    cases List.mem_singleton.mp member
    exact .single retire_effect
  | tokenSigned kid =>
    cases List.mem_singleton.mp member
    exact .single (.kept rfl)

theorem committing_active {result : Except PyError (OidcSigningKey × KeyStore)} (succeeded : (committing result).raised = none)
    (returned : ∀ row after, result = .ok (row, after) → HasActive after) :
    HasActive ((committing result).commits.getLastD store) := by
  cases result with
  | error raised => cases succeeded
  | ok pair => exact returned _ _ rfl

/-- A call that leaves an active key has done so when it returns. -/
theorem serve_provides {call : Call} (provides : Provides call) (succeeded : (serve env fernet store call).raised = none) :
    HasActive ((serve env fernet store call).commits.getLastD store) := by
  cases call with
  | create | retire | tokenSigned =>
    rcases provides with impossible | ⟨_, _, impossible⟩
    · exact impossible.elim
    · cases impossible
  | ensure generated now => exact committing_active succeeded fun row after ensured => ⟨row, ensure_active ensured⟩
  | activate kid actor now => exact committing_active succeeded fun row after activated => (activate_effect activated).2
  | rotate generated actor createdAt activatedAt =>
    simp only [serve] at succeeded ⊢
    split at succeeded
    next => cases succeeded
    next newKey created made =>
      rw [List.getLastD_cons]
      exact committing_active succeeded fun row after activated => (activate_effect activated).2

/-- Any other call leaves the active keys as they are, if there are some. -/
theorem serve_same {call : Call} (default : Default call) (other : ¬ Switches call) (active : store.activeKeys ≠ []) :
    ∀ committed ∈ (serve env fernet store call).commits, committed.activeKeys = store.activeKeys := by
  intro committed member
  cases call with
  | create generated status actor now =>
    cases default
    obtain ⟨row, created⟩ := mem_committing.mp member
    obtain ⟨rfl, rows, -⟩ := createSigningKey_ok.mp created
    rw [KeyStore.activeKeys, rows, List.filter_append]
    exact List.append_nil _
  | ensure generated now =>
    obtain ⟨row, ensured⟩ := mem_committing.mp member
    unfold ensureActiveSigningKey at ensured
    split at ensured
    next => cases ensured; rfl
    next missing => exact absurd (List.head?_eq_none_iff.mp missing) active
  | activate | rotate => exact absurd trivial other
  | retire actor now =>
    cases List.mem_singleton.mp member
    exact retire_activeKeys
  | tokenSigned kid =>
    cases List.mem_singleton.mp member
    rfl

end calls

section runs
variable {env : Settings} {fernet : Fernet} {store after : KeyStore}

theorem reaches_orderly (reaches : Relation.ReflTransGen (Effect env) store after) (orderly : Orderly env store) :
    Orderly env after := by
  induction reaches with
  | refl => exact orderly
  | tail _ effect ih => exact effect.orderly ih

theorem reaches_follows (reaches : Relation.ReflTransGen (Effect env) store after) : Follows store after := by
  induction reaches with
  | refl => exact .refl store
  | tail _ effect ih => exact ih.trans effect.follows

theorem step_some {call : Call} (taken : step env fernet store call = some after) :
    after = (serve env fernet store call).commits.getLastD store := by
  unfold step at taken
  split at taken
  next ready => exact (Option.some.inj taken).symm
  next => cases taken

theorem last_commit {call : Call} : (serve env fernet store call).commits.getLastD store = store ∨
    (serve env fernet store call).commits.getLastD store ∈ (serve env fernet store call).commits :=
  List.mem_cons.mp List.getLastD_mem_cons

theorem step_reaches {call : Call} (default : Default call) (taken : step env fernet store call = some after) :
    Relation.ReflTransGen (Effect env) store after := by
  rw [step_some taken]
  rcases last_commit with same | member
  · rw [same]
  · exact serve_reaches default _ member

theorem run_reaches {calls : List Call} (defaults : ∀ call ∈ calls, Default call)
    (executed : run (step env fernet) store calls = some after) : Relation.ReflTransGen (Effect env) store after := by
  induction calls generalizing store with
  | nil => cases executed; exact .refl
  | cons call calls ih =>
    obtain ⟨next, taken, rest⟩ := run_cons_some.mp executed
    obtain ⟨first, others⟩ := List.forall_mem_cons.mp defaults
    exact (step_reaches first taken).trans (ih others rest)

theorem Orderly.exactly_one (orderly : Orderly env store) (active : HasActive store) :
    ∃! row, row ∈ store.keys.rows ∧ row.status = .active := by
  obtain ⟨row, member, isActive⟩ := active
  refine ⟨row, ⟨member, isActive⟩, ?_⟩
  rintro other ⟨otherMember, otherActive⟩
  exact orderly.one other otherMember row member otherActive isActive

end runs

/-- Calls one after another, at any clock: the instants of every key go with its
status, and one key is active at most, also between the commits of a call. Exactly
one is once a call has left an active key. A retired key stays as it is, a key that
has been active and is validating has a deadline, and only an activation changes which
key is active. -/
theorem signing_keys_orderly (env : Settings) (fernet : Fernet) (earlier later : List Call) (call : Call)
    (before after last : KeyStore) (defaults : ∀ each ∈ earlier ++ call :: later, Default each)
    (reached : run (step env fernet) .empty earlier = some before) (taken : step env fernet before call = some after)
    (continued : run (step env fernet) after later = some last) :
    Orderly env before ∧ Orderly env last ∧ (∀ committed ∈ (serve env fernet before call).commits, Orderly env committed) ∧
      (Provides call → (serve env fernet before call).raised = none → ∃! row, row ∈ last.keys.rows ∧ row.status = .active) ∧
      (∀ row ∈ before.keys.rows, row.status = .retired → row ∈ last.keys.rows) ∧
      (∀ row ∈ before.keys.rows, row.status = .active →
        ∀ held ∈ last.keys.rows, held.kid = row.kid → held.status = .validating → Demoted env held) ∧
      (¬ Switches call → before.activeKeys ≠ [] → after.activeKeys = before.activeKeys) := by
  obtain ⟨first, rest⟩ := List.forall_mem_append.mp defaults
  obtain ⟨default, others⟩ := List.forall_mem_cons.mp rest
  have orderly : Orderly env before := reaches_orderly (run_reaches first reached) .empty
  have next := step_reaches default taken
  have onward := run_reaches others continued
  have orderlyLast := reaches_orderly (next.trans onward) orderly
  have follows := reaches_follows (next.trans onward)
  have stepped := step_some taken
  refine ⟨orderly, orderlyLast, ?_, ?_, follows.retired, ?_, ?_⟩
  · exact fun committed member => reaches_orderly (serve_reaches default committed member) orderly
  · intro provides succeeded
    have active := serve_provides provides succeeded
    rw [← stepped] at active
    exact orderlyLast.exactly_one ((reaches_follows onward).active active)
  · intro row member active held heldMember same validating
    have marked : row.activatedAt ≠ none := by
      have lawful := orderly.lawful row member
      rw [Lawful, active] at lawful
      exact lawful.1
    -- an activation's instant is never cleared, so the key cannot pass for a new one
    obtain ⟨later, laterMember, laterKid, laterMarked⟩ := follows.marked row member marked
    cases last.keys.valid.unique heldMember laterMember (same.trans laterKid.symm)
    have lawful := orderlyLast.lawful held heldMember
    rw [Lawful, validating] at lawful
    rcases lawful.1 with ⟨unset, -⟩ | demoted
    · exact absurd unset laterMarked
    · exact demoted
  · intro other active
    rw [stepped]
    rcases last_commit with same | member
    · rw [same]
    · exact serve_same default other active _ member

/-- The first key is activated again, replaced, activated once more and retired in the end. -/
def lifecycle : List Call :=
  [.ensure ⟨⟨"kid-1", "n-1", "AQAB", "d-1"⟩, 1⟩ (seconds 0), .activate "kid-1" "admin" (seconds 1),
    .rotate ⟨⟨"kid-2", "n-2", "AQAB", "d-2"⟩, 2⟩ "admin" (seconds 2) (seconds 3), .activate "kid-1" "admin" (seconds 4),
    .create ⟨⟨"kid-3", "n-3", "AQAB", "d-3"⟩, 3⟩ .validating "admin" (seconds 5)]

theorem lifecycle_orderly : ∃ before after last,
    run (step {} ⟨fun _ key => key.d, fun _ => none⟩) .empty lifecycle = some before ∧
    run (step {} ⟨fun _ key => key.d, fun _ => none⟩) after [.retire "admin" (seconds 90000)] = some last ∧
    (last.keys.rows.map OidcSigningKey.status = [.retired, .active, .validating]) ∧
    (∃! row, row ∈ last.keys.rows ∧ row.status = .active) ∧ Orderly {} last := by
  have laws := signing_keys_orderly {} ⟨fun _ key => key.d, fun _ => none⟩ lifecycle [.retire "admin" (seconds 90000)]
    (.activate "kid-2" "admin" (seconds 6)) _ _ _ (by simp [lifecycle, Default]) rfl rfl rfl
  exact ⟨_, _, _, rfl, rfl, rfl, laws.2.2.2.1 (.inl trivial) rfl, laws.2.1⟩

end Satoidc.Proofs.KeyStates
