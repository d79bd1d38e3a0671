import Mathlib.Tactic.Linarith
import Satoidc.Proofs.KeyRows

/-! A signing key stays published for as long as a token it signed can be valid.
Every call moves a row in one of four ways, and only retirement takes it out of
the published set; the deadline that a demotion sets is behind the expiry of
every token signed before it. -/

namespace Satoidc.Proofs.KeyRetention
open Foundation KeyLifecycle KeyRows

structure SameKey (row later : OidcSigningKey) : Prop where
  kid : later.kid = row.kid
  publicJwk : later.publicJwk = row.publicJwk
  privateJwkEncrypted : later.privateJwkEncrypted = row.privateJwkEncrypted

theorem SameKey.refl (row : OidcSigningKey) : SameKey row row := ⟨rfl, rfl, rfl⟩

theorem SameKey.trans {first second third : OidcSigningKey} (left : SameKey first second)
    (right : SameKey second third) : SameKey first third :=
  ⟨right.kid.trans left.kid, right.publicJwk.trans left.publicJwk, right.privateJwkEncrypted.trans left.privateJwkEncrypted⟩

/-- What a call at `now` can do to the status of a row. -/
inductive Change (env : Settings) (now : Instant) (row later : OidcSigningKey) : Prop where
  | kept (same : later = row)
  | demoted (status : later.status = .validating) (deadline : later.retiredAfter = some (retiredAfter env now))
  | activated (status : later.status = .active)
  | retired (after : Instant) (deadline : row.retiredAfter = some after) (passed : after < now)
      (was : row.status = .validating)

/-- A row of the key table whose three key columns come from one drawn key pair. -/
def Genuine (env : Settings) (fernet : Fernet) (row : OidcSigningKey) : Prop :=
  ∃ generated : Generated, row.kid = generated.key.kid ∧ row.publicJwk = generated.key.publicJwk env.oauth2JwtAlg ∧
    row.privateJwkEncrypted = fernet.encrypt generated.iv generated.key

theorem Genuine.same {env : Settings} {fernet : Fernet} {row later : OidcSigningKey} (genuine : Genuine env fernet row)
    (same : SameKey row later) : Genuine env fernet later := by
  obtain ⟨generated, kid, publicJwk, privateJwk⟩ := genuine
  exact ⟨generated, same.kid.trans kid, same.publicJwk.trans publicJwk, same.privateJwkEncrypted.trans privateJwk⟩

/-- The account of one call: where each row goes, where each row comes from, and
that a key stays active. -/
structure Account (env : Settings) (fernet : Fernet) (now : Instant) (before after : KeyStore) : Prop where
  goes : ∀ row ∈ before.keys.rows, ∃ later ∈ after.keys.rows, SameKey row later ∧ Change env now row later
  comes : ∀ later ∈ after.keys.rows, Genuine env fernet later ∨ ∃ row ∈ before.keys.rows, SameKey row later
  active : (∃ row ∈ before.keys.rows, row.status = .active) → ∃ row ∈ after.keys.rows, row.status = .active

section account
variable {env : Settings} {fernet : Fernet} {now : Instant} {store after : KeyStore} {actor : String}
  {generated : Generated} {status : KeyStatus} {row key : OidcSigningKey}

theorem Account.idle (store : KeyStore) : Account env fernet now store store where
  goes row member := ⟨row, member, .refl row, .kept rfl⟩
  comes later member := .inr ⟨later, member, .refl later⟩
  active held := held

theorem Account.create (created : createSigningKey env fernet generated now store status actor = .ok (row, after)) :
    Account env fernet now store after := by
  obtain ⟨rfl, rows, -⟩ := createSigningKey_ok.mp created
  have stays : ∀ old ∈ store.keys.rows, old ∈ after.keys.rows := by
    intro old member
    rw [rows]
    exact List.mem_append_left _ member
  refine ⟨fun old member => ⟨old, stays old member, .refl old, .kept rfl⟩, ?_, ?_⟩
  · intro later member
    rw [rows, List.mem_append, List.mem_singleton] at member
    rcases member with old | rfl
    · exact .inr ⟨later, old, .refl later⟩
    · exact .inl ⟨generated, rfl, rfl, rfl⟩
  · rintro ⟨old, member, active⟩
    exact ⟨old, stays old member, active⟩

theorem activateRow_same (actives : List OidcSigningKey) (stored : OidcSigningKey) :
    SameKey stored (activateRow env now key actives stored) := by
  unfold activateRow
  split
  · exact ⟨rfl, rfl, rfl⟩
  · split <;> exact ⟨rfl, rfl, rfl⟩

theorem retireRow_same (expired : List OidcSigningKey) (stored : OidcSigningKey) :
    SameKey stored (retireRow now expired stored) := by
  unfold retireRow
  split <;> exact ⟨rfl, rfl, rfl⟩

theorem Account.activate (stored : row ∈ store.keys.rows) (same : row.kid = key.kid)
    (current : key.status = .active → row.status = .active) :
    Account env fernet now store (activateWrite env now actor key store.activeKeys store) := by
  have target : (activateRow env now key store.activeKeys row).status = .active := by
    rw [activateRow_target same]
    split
    next wasActive => exact current wasActive
    next => rfl
  refine ⟨fun old member => ⟨_, mem_activateWrite.mpr ⟨old, member, rfl⟩, activateRow_same _ old, ?_⟩, ?_, ?_⟩
  · by_cases isTarget : old.kid = key.kid
    · rw [store.keys.valid.unique member stored (isTarget.trans same.symm)]
      exact .activated target
    · by_cases active : old.status = .active
      · rw [activateRow_active member active isTarget]
        exact .demoted rfl rfl
      · exact .kept (activateRow_inactive member active isTarget)
  · intro later member
    obtain ⟨old, oldMember, rfl⟩ := mem_activateWrite.mp member
    exact .inr ⟨old, oldMember, activateRow_same _ old⟩
  · exact fun _ => ⟨_, mem_activateWrite.mpr ⟨row, stored, rfl⟩, target⟩

theorem Account.retire : Account env fernet now store (retireWrite now actor (expiredKeys now store) store) := by
  refine ⟨fun old member => ⟨_, mem_retireWrite.mpr ⟨old, member, rfl⟩, retireRow_same _ old, ?_⟩, ?_, ?_⟩
  · rcases retireRow_expired member with same | ⟨after, was, deadline, passed, -⟩
    · exact .kept same
    · exact .retired after deadline passed was
  · intro later member
    obtain ⟨old, oldMember, rfl⟩ := mem_retireWrite.mp member
    exact .inr ⟨old, oldMember, retireRow_same _ old⟩
  · rintro ⟨old, member, active⟩
    refine ⟨_, mem_retireWrite.mpr ⟨old, member, rfl⟩, ?_⟩
    rcases retireRow_expired member with same | ⟨-, was, -⟩
    · rw [same, active]
    · cases active.symm.trans was

end account

/-- Every stored key is genuine, and every rotation under way holds a stored key
as it was created. -/
structure Sound (env : Settings) (fernet : Fernet) (state : State) : Prop where
  genuine : ∀ row ∈ state.store.keys.rows, Genuine env fernet row
  rotating : ∀ key ∈ state.rotating, key.status = .validating ∧ ∃ row ∈ state.store.keys.rows, row.kid = key.kid

section calls
variable {env : Settings} {fernet : Fernet} {state next : State} {now : Instant} {call : Call}

theorem Account.outcome {store : KeyStore} {result : Except PyError (OidcSigningKey × KeyStore)}
    (returned : ∀ row after, result = .ok (row, after) → Account env fernet now store after) :
    Account env fernet now store (KeyLifecycle.outcome store result) := by
  cases result with
  | error _ => exact .idle store
  | ok pair => exact returned _ _ rfl

theorem Account.ensure {store : KeyStore} {generated : Generated} {row : OidcSigningKey} {after : KeyStore}
    (ensured : ensureActiveSigningKey env fernet generated now store = .ok (row, after)) :
    Account env fernet now store after := by
  unfold ensureActiveSigningKey at ensured
  split at ensured
  next => cases ensured; exact .idle _
  next => exact .create ensured

theorem Account.serve (sound : Sound env fernet state) (ready : enabled state now call = true) :
    Account env fernet now state.store (serve env fernet now state.store call) := by
  cases call with
  | create generated actor | rotate generated actor => exact .outcome fun row after created => .create created
  | ensure generated => exact .outcome fun row after ensured => .ensure ensured
  | activate kid actor =>
    refine .outcome ?_
    intro row after activated
    obtain ⟨key, found, -, rfl⟩ := activateSigningKey_ok activated
    exact .activate (mem_of_lookup found).1 rfl id
  | finishRotation held actor =>
    refine .outcome ?_
    intro row after activated
    simp only [finishRotation] at activated
    cases passed : activatable held.kid (some held) with
    | error raised => rw [passed] at activated; cases activated
    | ok key =>
      rw [passed] at activated
      cases activated
      cases (activatable_ok passed).1
      simp only [enabled, Bool.and_eq_true, decide_eq_true_eq] at ready
      obtain ⟨asCreated, stored, member, same⟩ := sound.rotating held ready.2
      exact .activate member same fun active => by cases asCreated.symm.trans active
  | retire actor => exact .retire

theorem step_account (sound : Sound env fernet state) (taken : step env fernet state (now, call) = some next) :
    state.clock ≤ now ∧ next.clock = now ∧ Account env fernet now state.store next.store := by
  unfold step at taken
  split at taken
  next ready =>
    cases taken
    refine ⟨?_, rfl, .serve sound ready⟩
    cases call <;> simp only [enabled, Bool.and_eq_true, decide_eq_true_eq] at ready
    case finishRotation => exact ready.1
    all_goals exact ready
  next => cases taken

theorem initial_sound (clock : Instant) : Sound env fernet (initial clock) where
  genuine row member := by cases member
  rotating key member := by cases member

theorem Sound.carry {after : KeyStore} (sound : Sound env fernet state) (account : Account env fernet now state.store after)
    (clock : Instant) : Sound env fernet ⟨after, clock, state.rotating⟩ := by
  refine ⟨?_, ?_⟩
  · intro later member
    rcases account.comes later member with fresh | ⟨row, old, same⟩
    · exact fresh
    · exact (sound.genuine row old).same same
  · intro key member
    obtain ⟨asCreated, row, stored, same⟩ := sound.rotating key member
    obtain ⟨later, inside, identity, -⟩ := account.goes row stored
    exact ⟨asCreated, later, inside, identity.kid.trans same⟩

theorem step_sound (sound : Sound env fernet state) (taken : step env fernet state (now, call) = some next) :
    Sound env fernet next := by
  unfold step at taken
  split at taken
  next ready =>
    cases taken
    have carried := sound.carry (.serve sound ready) now
    refine ⟨carried.genuine, ?_⟩
    intro key member
    cases call with
    | create _ _ | ensure _ | activate _ _ | retire _ => exact carried.rotating key member
    | finishRotation held actor => exact carried.rotating key (List.mem_of_mem_erase member)
    | rotate generated actor =>
      simp only [rotations] at member
      split at member
      next row after created =>
        rcases List.mem_cons.mp member with rfl | old
        · obtain ⟨rfl, rows, -⟩ := createSigningKey_ok.mp created
          refine ⟨rfl, generateKeyRow env fernet generated .validating now, ?_, rfl⟩
          simp only [serve, created, KeyLifecycle.outcome, rows]
          exact List.mem_append_right _ List.mem_cons_self
        · exact carried.rotating key old
      next => exact carried.rotating key member
  next => cases taken

end calls

/-- Until `deadline`, the key of `row` is published: it is active, or validating
and not to be retired before the deadline. -/
def Retained (deadline : Instant) (row : OidcSigningKey) (state : State) : Prop :=
  state.clock ≤ deadline → ∃ later ∈ state.store.keys.rows, SameKey row later ∧
    (later.status = .active ∨
      later.status = .validating ∧ ∃ after, later.retiredAfter = some after ∧ deadline ≤ after)

theorem retiredAfter_mono (env : Settings) {first second : Instant} (order : first ≤ second) :
    retiredAfter env first ≤ retiredAfter env second := Int.add_le_add_right order _

theorem retained_step {env : Settings} {fernet : Fernet} {state next : State} {now read deadline : Instant} {call : Call}
    {row : OidcSigningKey} (sound : Sound env fernet state) (since : read ≤ state.clock)
    (within : deadline ≤ retiredAfter env read) (retained : Retained deadline row state)
    (taken : step env fernet state (now, call) = some next) : Retained deadline row next := by
  obtain ⟨passes, clock, account⟩ := step_account sound taken
  intro early
  have early' : now ≤ deadline := clock ▸ early
  obtain ⟨held, member, same, status⟩ := retained (passes.trans early')
  obtain ⟨later, laterMember, laterSame, change⟩ := account.goes held member
  refine ⟨later, laterMember, same.trans laterSame, ?_⟩
  cases change with
  | kept unchanged => rw [unchanged]; exact status
  | activated active => exact .inl active
  | demoted validating after =>
    exact .inr ⟨validating, _, after, within.trans (retiredAfter_mono env (since.trans passes))⟩
  | retired after due passed was =>
    rcases status with active | ⟨-, other, otherDue, notBefore⟩
    · cases was.symm.trans active
    · cases due.symm.trans otherDue
      exact absurd (early'.trans notBefore) (not_le_of_gt passed)

/-- A token that expires at `expiry` was signed early enough for the key's deadline. -/
theorem expiry_within (env : Settings) {config : JwtConfig} {read claimsAt now : Instant}
    (lifetime : config.exp = env.oauth2TokenExpiresIn)
    (prompt : claimsAt ≤ read + seconds (env.oidcJwksCacheTtlSeconds + env.oidcKeyRetentionMarginSeconds))
    (valid : now ≤ seconds (config.expiry claimsAt)) : now ≤ retiredAfter env read := by
  simp only [retiredAfter, JwtConfig.expiry, unixSeconds, seconds, lifetime] at *
  have whole : claimsAt / 1000000 * 1000000 ≤ claimsAt := Int.ediv_mul_le _ (by decide)
  linarith

/-- While a key is active, the published set is that of the stored rows. -/
theorem getJwks_ok {env : Settings} {fernet : Fernet} {spare : Generated} {now : Instant} {store : KeyStore}
    (active : ∃ row ∈ store.keys.rows, row.status = .active) :
    ∃ keys, getJwks env fernet spare now store = .ok (keys, store) ∧
      ∀ row ∈ store.keys.rows, row.status.publishable → row.publicJwk ∈ keys := by
  obtain ⟨row, member, isActive⟩ := active
  have inside : row ∈ store.activeKeys := List.mem_filter.mpr ⟨member, by simp [isActive]⟩
  obtain ⟨first, found⟩ : ∃ first, store.activeKeys.head? = some first := by
    cases actives : store.activeKeys with
    | nil => rw [actives] at inside; cases inside
    | cons first rest => exact ⟨first, rfl⟩
  refine ⟨_, by simp only [getJwks, ensureActiveSigningKey, found]; rfl, ?_⟩
  intro key stored published
  exact List.mem_map_of_mem (List.mem_insertionSort _ |>.mpr (List.mem_filter.mpr ⟨stored, published⟩))

/-- Every ID token's key is published until the token expires: after any calls,
the signing configuration is read at `read`, the claims are computed within the
cache time and margin, and after any further calls the key set is fetched at
`now`, not after the token's expiry. -/
theorem token_key_published (env : Settings) (fernet : Fernet)
    (opens : ∀ iv key, fernet.decrypt (fernet.encrypt iv key) = some key)
    (start : Instant) (earlier later : List (Instant × Call)) (before after : State)
    (drawn spare : Generated) (config : JwtConfig) (store : KeyStore) (read claimsAt now : Instant)
    (reached : run (step env fernet) (initial start) earlier = some before)
    (signing : getActiveJwtConfig env fernet drawn read before.store = .ok (config, store))
    (continued : run (step env fernet) ⟨store, read, before.rotating⟩ later = some after)
    (prompt : claimsAt ≤ read + seconds (env.oidcJwksCacheTtlSeconds + env.oidcKeyRetentionMarginSeconds))
    (fetched : after.clock ≤ now) (valid : now ≤ seconds (config.expiry claimsAt)) :
    ∃ keys, getJwks env fernet spare now after.store = .ok (keys, after.store) ∧
      ∃ row ∈ after.store.keys.rows, row.kid = config.kid ∧ fernet.decrypt row.privateJwkEncrypted = some config.key ∧
        row.publicJwk ∈ keys ∧ row.publicJwk.kid = config.kid ∧
        row.publicJwk = config.key.publicJwk env.oauth2JwtAlg := by
  have soundBefore : Sound env fernet before :=
    run_invariant (Sound env fernet) (fun _ _ _ sound taken => step_sound sound taken) (initial_sound start) reached
  obtain ⟨signer, ensured, opened, kid, -, -, lifetime⟩ := getActiveJwtConfig_ok.mp signing
  obtain ⟨signerStored, signerActive⟩ := ensure_active ensured
  obtain ⟨soundAfter, -, retained, active⟩ := run_invariant (fun state => Sound env fernet state ∧ read ≤ state.clock ∧
      Retained (retiredAfter env read) signer state ∧ ∃ row ∈ state.store.keys.rows, row.status = .active)
    (by
      rintro state event next ⟨sound, since, kept, active⟩ taken
      obtain ⟨passes, clock, account⟩ := step_account sound taken
      exact ⟨step_sound sound taken, since.trans (clock ▸ passes), retained_step sound since le_rfl kept taken,
        account.active active⟩)
    ⟨soundBefore.carry (.ensure ensured) read, le_rfl,
      fun _ => ⟨signer, signerStored, .refl signer, .inl signerActive⟩, signer, signerStored, signerActive⟩ continued
  obtain ⟨row, member, same, status⟩ := retained (fetched.trans (expiry_within env lifetime prompt valid))
  obtain ⟨generated, rowKid, publicJwk, privateJwk⟩ := soundAfter.genuine row member
  obtain ⟨keys, answered, published⟩ := getJwks_ok active
  have decrypts : fernet.decrypt row.privateJwkEncrypted = some config.key := by rw [same.privateJwkEncrypted, opened]
  have drawnKey : generated.key = config.key := by
    rw [privateJwk, opens] at decrypts
    exact Option.some.inj decrypts
  refine ⟨keys, answered, row, member, same.kid.trans kid.symm, decrypts, published row member ?_, ?_, ?_⟩
  · rcases status with isActive | ⟨isValidating, -⟩
    · rw [isActive]; rfl
    · rw [isValidating]; rfl
  · rw [publicJwk, RsaKey.publicJwk, ← rowKid, same.kid, kid]
  · rw [publicJwk, drawnKey]

def packed (text : String) : List Char := text.toList.flatMap (fun c => ['+', c]) ++ ['.']

def unpack : List Char → Option (List Char × List Char)
  | '.' :: rest => some ([], rest)
  | '+' :: c :: rest => (unpack rest).map fun (text, rest) => (c :: text, rest)
  | _ => none

theorem unpack_packed (text : String) (rest : List Char) : unpack (packed text ++ rest) = some (text.toList, rest) := by
  unfold packed
  generalize text.toList = chars
  induction chars with
  | nil => simp [unpack]
  | cons c chars ih =>
    simp only [List.flatMap_cons, List.cons_append, List.nil_append, unpack]
    rw [ih, Option.map_some]

/-- A stand-in for the encryption that writes the private dictionary out. -/
def plainFernet : Fernet where
  encrypt _ key := String.ofList (packed key.kid ++ (packed key.n ++ (packed key.e ++ packed key.d)))
  decrypt token := do
    let (kid, rest) ← unpack token.toList
    let (n, rest) ← unpack rest
    let (e, rest) ← unpack rest
    let (d, _) ← unpack rest
    some ⟨String.ofList kid, String.ofList n, String.ofList e, String.ofList d⟩

theorem plainFernet_opens (iv : Nat) (key : RsaKey) : plainFernet.decrypt (plainFernet.encrypt iv key) = some key := by
  have last : unpack (packed key.d) = some (key.d.toList, []) := by simpa using unpack_packed key.d []
  simp [plainFernet, unpack_packed, last]

/-- A token is signed just before a rotation. -/
def rotatedAway : List (Instant × Call) :=
  [(seconds 11, .rotate ⟨⟨"kid-2", "n-2", "AQAB", "d-2"⟩, 2⟩ "admin"), (seconds 12, .activate "kid-2" "admin"),
    (seconds 300, .retire "admin")]

theorem rotated_token_verifies :
    ∃ (config : JwtConfig) (after : KeyStore) (keys : List PublicJwk) (row : OidcSigningKey),
      getJwks {} plainFernet ⟨⟨"kid-3", "n-3", "AQAB", "d-3"⟩, 3⟩ (seconds 320) after = .ok (keys, after) ∧
        row ∈ after.keys.rows ∧ config.kid = "kid-1" ∧ row.publicJwk ∈ keys ∧ row.publicJwk.kid = config.kid := by
  obtain ⟨keys, fetched, row, member, -, -, published, kid, -⟩ := token_key_published {} plainFernet plainFernet_opens 0 []
    rotatedAway _ _ ⟨⟨"kid-1", "n-1", "AQAB", "d-1"⟩, 1⟩ ⟨⟨"kid-3", "n-3", "AQAB", "d-3"⟩, 3⟩ _ _
    (seconds 10) (seconds 20) (seconds 320) rfl rfl rfl (by decide) (by decide) (by decide)
  exact ⟨_, _, keys, row, fetched, member, rfl, published, kid⟩

end Satoidc.Proofs.KeyRetention
