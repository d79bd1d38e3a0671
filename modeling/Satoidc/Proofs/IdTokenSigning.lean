import Satoidc.Foundation.History
import Satoidc.IdTokens
import Satoidc.Proofs.KeyRaces

/-! Which key an ID token is signed with. The configuration that a call pins is the
only one its hooks see, so a token is of one row, which was active during the call. -/

namespace Satoidc.Proofs.IdTokenSigning
open Foundation OpenIDCode

structure SignedWith (config : JwtConfig) (token : IdToken) : Prop where
  header : token.header = getEncodeHeader config
  claims : ∃ clientId now, token.claims = getClientClaims config clientId now
  alg : token.alg = config.alg
  key : token.key = config.key

/-- Everything that the hooks have returned is of this configuration. -/
structure Obtains (config : JwtConfig) (obtained : Obtained) : Prop where
  keys : ∀ key ∈ obtained.keys, key = config.key
  algs : ∀ alg ∈ obtained.algs, alg = config.alg
  claims : ∀ claims ∈ obtained.claims, ∃ clientId now, claims = getClientClaims config clientId now
  headers : ∀ header ∈ obtained.headers, header = getEncodeHeader config

theorem Obtains.empty (config : JwtConfig) : Obtains config {} := by
  constructor
  all_goals
    intro _ member
    cases member

theorem forall_cons {α : Type} {property : α → Prop} {head : α} {tail : List α} (first : property head)
    (rest : ∀ item ∈ tail, property item) : ∀ item ∈ head :: tail, property item := by
  intro item member
  rcases List.mem_cons.mp member with rfl | member
  · exact first
  · exact rest item member

theorem Obtains.add {config : JwtConfig} {obtained : Obtained} (obtains : Obtains config obtained) (hook : Hook) :
    Obtains config (obtained.add config hook) := by
  cases hook with
  | resolveClientPrivateKey => exact { obtains with keys := forall_cons rfl obtains.keys }
  | getClientAlgorithm => exact { obtains with algs := forall_cons rfl obtains.algs }
  | getClientClaims clientId now => exact { obtains with claims := forall_cons ⟨clientId, now, rfl⟩ obtains.claims }
  | getEncodeHeader => exact { obtains with headers := forall_cons rfl obtains.headers }

theorem Obtains.builds {config : JwtConfig} {obtained : Obtained} (obtains : Obtains config obtained) {token : IdToken}
    (builds : obtained.builds token) : SignedWith config token := by
  obtain ⟨header, claims, alg, key⟩ := builds
  exact ⟨obtains.headers _ header, obtains.claims _ claims, obtains.algs _ alg, obtains.keys _ key⟩

/-- The token is of this row of the key table. -/
structure SignedBy (env : Settings) (fernet : Fernet) (row : OidcSigningKey) (token : IdToken) : Prop where
  kid : token.header.kid = row.kid
  headerAlg : token.header.alg = row.alg
  alg : token.alg = row.alg
  key : fernet.decrypt row.privateJwkEncrypted = some token.key
  iss : token.claims.iss = env.oauth2JwtIss
  exp : token.claims.exp = token.claims.iat + env.oauth2TokenExpiresIn

section config
variable {env : Settings} {fernet : Fernet} {row : OidcSigningKey} {config : JwtConfig}

theorem jwtConfigOf_ok (signs : jwtConfigOf env fernet row = .ok config) :
    fernet.decrypt row.privateJwkEncrypted = some config.key ∧ config.kid = row.kid ∧ config.alg = row.alg ∧
      config.iss = env.oauth2JwtIss ∧ config.exp = env.oauth2TokenExpiresIn := by
  unfold jwtConfigOf at signs
  split at signs
  next => cases signs
  next opened => cases signs; exact ⟨opened, rfl, rfl, rfl, rfl⟩

theorem SignedWith.signedBy {token : IdToken} (signed : SignedWith config token)
    (signs : jwtConfigOf env fernet row = .ok config) : SignedBy env fernet row token := by
  obtain ⟨opened, kid, alg, iss, exp⟩ := jwtConfigOf_ok signs
  obtain ⟨clientId, now, claims⟩ := signed.claims
  refine ⟨?_, ?_, signed.alg.trans alg, ?_, ?_, ?_⟩
  · rw [signed.header]
    exact kid
  · rw [signed.header]
    exact alg
  · rw [signed.key]
    exact opened
  · rw [claims]
    exact iss
  · rw [claims, ← exp]
    rfl

end config

/-- The token that a call has built or returned. -/
def Call.token : Call → Option IdToken
  | .encoded _ _ token | .leaving _ (.ok token) | .returned (.ok token) => some token
  | .idle | .reading | .bootstrapping | .encoding _ _ _ | .leaving _ (.error _) | .returned (.error _) => none

/-- Between the start and the end of a call of `encode_id_token`. -/
def InCall (thread : Thread) : Prop :=
  match thread.call with
  | .idle | .returned _ => False
  | .reading | .bootstrapping | .encoding _ _ _ | .encoded _ _ _ | .leaving _ _ => True

/-- The configuration is that of a row for which `active` holds. -/
def From (env : Settings) (fernet : Fernet) (active : OidcSigningKey → Prop) (config : JwtConfig) : Prop :=
  ∃ row, active row ∧ jwtConfigOf env fernet row = .ok config

/-- What a thread has to do with the keys that have been active during its call. -/
def Sound (env : Settings) (fernet : Fernet) (active : OidcSigningKey → Prop) (thread : Thread) : Prop :=
  match thread.call with
  | .encoding _ config obtained => thread.pinned = some config ∧ From env fernet active config ∧ Obtains config obtained
  | .encoded _ config token => From env fernet active config ∧ SignedWith config token
  | .leaving _ (.ok token) | .returned (.ok token) => ∃ config, From env fernet active config ∧ SignedWith config token
  | .idle | .reading | .bootstrapping | .leaving _ (.error _) | .returned (.error _) => True

section thread
variable {env : Settings} {fernet : Fernet} {active later : OidcSigningKey → Prop} {thread next : Thread}
  {store after : KeyStore} {input : Input}

theorem From.mono {config : JwtConfig} (grows : ∀ row, active row → later row) (from' : From env fernet active config) :
    From env fernet later config := by
  obtain ⟨row, held, signs⟩ := from'
  exact ⟨row, grows row held, signs⟩

theorem Sound.mono (grows : ∀ row, active row → later row) (sound : Sound env fernet active thread) :
    Sound env fernet later thread := by
  obtain ⟨pinned, call⟩ := thread
  cases call with
  | idle | reading | bootstrapping => trivial
  | encoding before config obtained => exact ⟨sound.1, sound.2.1.mono grows, sound.2.2⟩
  | encoded before config token => exact ⟨sound.1.mono grows, sound.2⟩
  | leaving before result | returned result =>
    cases result with
    | error raised => trivial
    | ok token =>
      obtain ⟨config, from', signed⟩ := sound
      exact ⟨config, from'.mono grows, signed⟩

theorem pin_sound {pinned : Option JwtConfig} {row : OidcSigningKey}
    (held : InCall (pin env fernet pinned row) → active row) : Sound env fernet active (pin env fernet pinned row) := by
  unfold pin at held ⊢
  cases signs : jwtConfigOf env fernet row with
  | error raised => trivial
  | ok config =>
    rw [signs] at held
    exact ⟨rfl, ⟨row, held trivial, signs⟩, .empty config⟩

/-- A step of a call. A read finds a row that is active as it is made, a bootstrap
inserts one that is active then. -/
theorem advance_sound (taken : advance env fernet input store thread = some (after, next))
    (found : thread.call = .reading → ∀ row ∈ store.activeKeys, active row)
    (inserted : thread.call = .bootstrapping → InCall next → ∀ row ∈ after.activeKeys, active row)
    (sound : Sound env fernet active thread) : Sound env fernet active next := by
  unfold advance at taken
  split at taken
  next => cases taken; trivial
  next => cases taken; trivial
  next pinned =>
    cases taken
    cases shown : store.activeKeys.head? with
    | none => trivial
    | some row => exact pin_sound fun _ => found rfl row (List.mem_of_head? shown)
  next generated now pinned =>
    cases created : createSigningKey env fernet generated now store .active with
    | error raised =>
      rw [created] at taken
      cases taken
      trivial
    | ok result =>
      obtain ⟨row, grown⟩ := result
      rw [created] at taken
      cases taken
      obtain ⟨same, rows, -⟩ := createSigningKey_ok.mp created
      refine pin_sound fun inside => inserted rfl inside row ?_
      rw [KeyStore.activeKeys, rows, List.mem_filter]
      exact ⟨List.mem_append_right _ (List.mem_singleton.mpr rfl), by rw [same]; rfl⟩
  next hook generated now pinned before config obtained =>
    obtain ⟨rfl, from', obtains⟩ := sound
    cases taken
    exact ⟨rfl, from', obtains.add hook⟩
  next token pinned before config obtained =>
    split at taken
    next builds =>
      cases taken
      exact ⟨sound.2.1, sound.2.2.builds builds⟩
    next => cases taken
  next => cases taken; trivial
  next => cases taken; trivial
  next pinned before config token =>
    cases taken
    exact ⟨config, sound⟩
  next pinned before result =>
    cases taken
    cases result with
    | error raised => trivial
    | ok token => exact sound
  next => cases taken

theorem call_reading (taken : advance env fernet .call store thread = some (after, next)) : next.call = .reading := by
  obtain ⟨pinned, call⟩ := thread
  cases call with
  | idle | returned _ => cases taken; rfl
  | reading | bootstrapping | encoding _ _ _ | encoded _ _ _ | leaving _ _ => cases taken

/-- Outside the call that the thread is in, its context variable holds `value`; inside,
`value` is what the way out restores. -/
def Restores (value : Option JwtConfig) (thread : Thread) : Prop :=
  match thread.call with
  | .idle | .reading | .bootstrapping | .returned _ => thread.pinned = value
  | .encoding before _ _ | .encoded before _ _ | .leaving before _ => before = value

theorem pin_restores {value pinned : Option JwtConfig} {row : OidcSigningKey} (held : pinned = value) :
    Restores value (pin env fernet pinned row) := by
  unfold pin
  cases jwtConfigOf env fernet row <;> exact held

theorem advance_restores {value : Option JwtConfig} (taken : advance env fernet input store thread = some (after, next))
    (restores : Restores value thread) : Restores value next := by
  unfold advance at taken
  split at taken
  next => cases taken; exact restores
  next => cases taken; exact restores
  next pinned =>
    cases taken
    cases store.activeKeys.head? with
    | none => exact restores
    | some row => exact pin_restores restores
  next generated now pinned =>
    cases created : createSigningKey env fernet generated now store .active with
    | error raised => rw [created] at taken; cases taken; exact restores
    | ok result => rw [created] at taken; cases taken; exact pin_restores restores
  next hook generated now pinned before config obtained =>
    cases current : currentOidcJwtConfig env fernet generated now pinned store with
    | error raised => rw [current] at taken; cases taken; exact restores
    | ok result => rw [current] at taken; cases taken; exact restores
  next token pinned before config obtained =>
    split at taken
    next => cases taken; exact restores
    next => cases taken
  next => cases taken; exact restores
  next => cases taken; exact restores
  next => cases taken; exact restores
  next => cases taken; exact restores
  next => cases taken

end thread

section runs
variable {env : Settings} {fernet : Fernet} {start world next : World KeyStore Session} {events : List (Nat × Action)}
  {event : Nat × Action} {index : Nat}

/-- The row was active at an instant during the latest call of the thread. -/
def ActiveDuring (env : Settings) (fernet : Fernet) (start : World KeyStore Session) (events : List (Nat × Action)) (index : Nat)
    (row : OidcSigningKey) : Prop :=
  ∃ first second reached, events = first ++ second ∧ (index, .signing .call) ∉ second ∧
    run (World.step (advanceSession env fernet)) start first = some reached ∧
    (∃ thread, reached.sessions index = .signing thread ∧ InCall thread) ∧ row ∈ reached.shared.activeKeys

theorem ActiveDuring.extend {row : OidcSigningKey} (active : ActiveDuring env fernet start events index row)
    (other : event ≠ (index, .signing .call)) : ActiveDuring env fernet start (events ++ [event]) index row := by
  obtain ⟨first, second, reached, rfl, same, partway, inside, held⟩ := active
  refine ⟨first, second ++ [event], reached, List.append_assoc .., ?_, partway, inside, held⟩
  rw [List.mem_append, List.mem_singleton, not_or]
  exact ⟨same, other.symm⟩

theorem ActiveDuring.now {row : OidcSigningKey}
    (executed : run (World.step (advanceSession env fernet)) start events = some world)
    {thread : Thread} (shown : world.sessions index = .signing thread) (inside : InCall thread)
    (held : row ∈ world.shared.activeKeys) : ActiveDuring env fernet start events index row :=
  ⟨events, [], world, (List.append_nil events).symm, List.not_mem_nil, executed, ⟨thread, shown, inside⟩, held⟩

/-- What each thread that signs has to do with the keys active during its latest call. -/
def Signs (env : Settings) (fernet : Fernet) (start : World KeyStore Session) (past : List (Nat × Action))
    (world : World KeyStore Session) : Prop :=
  ∀ index thread, world.sessions index = .signing thread →
    Sound env fernet (ActiveDuring env fernet start past index) thread

theorem advanceSession_signing {action : Action} {store after : KeyStore} {session later : Session} {thread : Thread}
    (taken : advanceSession env fernet index action store session = some (after, later)) (signing : later = .signing thread) :
    ∃ input before, action = .signing input ∧ session = .signing before ∧
      advance env fernet input store before = some (after, thread) := by
  unfold advanceSession at taken
  split at taken
  next =>
    obtain ⟨_, -, same⟩ := Option.map_eq_some_iff.mp taken
    cases same
    cases signing
  next input before =>
    obtain ⟨_, moved, same⟩ := Option.map_eq_some_iff.mp taken
    cases same
    cases signing
    exact ⟨input, before, rfl, rfl, moved⟩
  next => cases taken

theorem signs_step (executed : run (World.step (advanceSession env fernet)) start events = some world)
    (signs : Signs env fernet start events world) (taken : World.step (advanceSession env fernet) world event = some next) :
    Signs env fernet start (events ++ [event]) next := by
  have onward := run_snoc_some.mpr ⟨world, executed, taken⟩
  obtain ⟨mover, action⟩ := event
  obtain ⟨shared, session, stepped, rfl⟩ := World.step_some.mp taken
  intro index thread shown
  by_cases same : index = mover
  · subst same
    have later := shown
    rw [World.moved_self] at shown
    obtain ⟨input, before, rfl, was, moved⟩ := advanceSession_signing stepped shown
    by_cases starts : input = .call
    · subst starts
      rw [Sound, call_reading moved]
      trivial
    · have other : (index, Action.signing input) ≠ (index, .signing .call) := by
        simpa using starts
      refine advance_sound moved ?_ ?_ ((signs index before was).mono fun row active => active.extend other)
      · intro reading row held
        have inside : InCall before := by
          rw [InCall, reading]
          trivial
        exact (ActiveDuring.now executed was inside held).extend other
      · intro _ inside row held
        exact .now onward later inside held
  · rw [World.moved_other _ _ _ same] at shown
    refine (signs index thread shown).mono fun row active => active.extend ?_
    rintro ⟨⟩
    exact same rfl

/-- Whether it signs or manages keys, a session stays what it is. -/
theorem restores_step {value : Option JwtConfig} (taken : World.step (advanceSession env fernet) world event = some next)
    (held : ∃ thread, world.sessions index = .signing thread ∧ Restores value thread) :
    ∃ thread, next.sessions index = .signing thread ∧ Restores value thread := by
  obtain ⟨mover, action⟩ := event
  obtain ⟨shared, session, stepped, rfl⟩ := World.step_some.mp taken
  obtain ⟨thread, shown, restores⟩ := held
  by_cases same : index = mover
  · subst same
    rw [World.moved_self]
    rw [shown] at stepped
    cases action with
    | keys input => cases stepped
    | signing input =>
      obtain ⟨⟨_, later⟩, moved, same⟩ := Option.map_eq_some_iff.mp stepped
      cases same
      exact ⟨later, rfl, advance_restores moved restores⟩
  · rw [World.moved_other _ _ _ same]
    exact ⟨thread, shown, restores⟩

end runs

theorem Restores.outside {value : Option JwtConfig} {thread : Thread} (restores : Restores value thread)
    (outside : ¬ InCall thread) : thread.pinned = value := by
  obtain ⟨pinned, call⟩ := thread
  cases call with
  | idle | returned _ => exact restores
  | reading | bootstrapping | encoding _ _ _ | encoded _ _ _ | leaving _ _ => exact absurd trivial outside

theorem Sound.token {env : Settings} {fernet : Fernet} {active : OidcSigningKey → Prop} {thread : Thread} {token : IdToken}
    (sound : Sound env fernet active thread) (holds : Call.token thread.call = some token) :
    ∃ row, active row ∧ SignedBy env fernet row token := by
  have from' : ∃ config, From env fernet active config ∧ SignedWith config token := by
    obtain ⟨pinned, call⟩ := thread
    cases call with
    | idle | reading | bootstrapping | encoding _ _ _ => cases holds
    | encoded before config token => cases holds; exact ⟨config, sound⟩
    | leaving before result | returned result =>
      cases result with
      | error raised => cases holds
      | ok token => cases holds; exact sound
  obtain ⟨config, ⟨row, held, signs⟩, signed⟩ := from'
  exact ⟨row, held, signed.signedBy signs⟩

theorem audit_token {env : Settings} {fernet : Fernet} {active : OidcSigningKey → Prop} {thread next : Thread}
    {store after : KeyStore} (sound : Sound env fernet active thread)
    (taken : advance env fernet .audit store thread = some (after, next)) :
    ∃ token, Call.token next.call = some token ∧ after.audit = store.audit ++ [⟨.tokenSigned, token.header.kid, "system"⟩] := by
  obtain ⟨pinned, call⟩ := thread
  cases call with
  | idle | reading | bootstrapping | encoding _ _ _ | leaving _ _ | returned _ => cases taken
  | encoded before config token =>
    cases taken
    refine ⟨token, rfl, ?_⟩
    rw [sound.2.header]
    rfl

/-- In any interleaving, all of an ID token comes from one row that was active during
the call, its audit event names that row's kid, and outside its calls a thread
has pinned what it had pinned at the start. -/
theorem id_token_of_one_row (env : Settings) (fernet : Fernet) (store : KeyStore) (signs : Nat → Option (Option JwtConfig))
    (events : List (Nat × Action)) (world : World KeyStore Session)
    (executed : run (World.step (advanceSession env fernet)) (initial store signs) events = some world) :
    (∀ index thread token, world.sessions index = .signing thread → Call.token thread.call = some token →
        ∃ row, ActiveDuring env fernet (initial store signs) events index row ∧ SignedBy env fernet row token) ∧
      (∀ first index second before after, events = first ++ (index, .signing .audit) :: second →
        run (World.step (advanceSession env fernet)) (initial store signs) first = some before →
        World.step (advanceSession env fernet) before (index, .signing .audit) = some after →
        ∃ thread token, after.sessions index = .signing thread ∧ Call.token thread.call = some token ∧
          after.shared.audit = before.shared.audit ++ [⟨.tokenSigned, token.header.kid, "system"⟩]) ∧
      ∀ index pinned, signs index = some pinned →
        ∃ thread, world.sessions index = .signing thread ∧ (¬ InCall thread → thread.pinned = pinned) := by
  have sound : ∀ past reached, run (World.step (advanceSession env fernet)) (initial store signs) past = some reached →
      Signs env fernet (initial store signs) past reached := by
    intro past reached partway
    refine run_history (Signs env fernet (initial store signs)) ?_ ?_ (along_true _ _) partway
    · intro index thread shown
      simp only [initial] at shown
      cases signing : signs index with
      | none => rw [signing] at shown; cases shown
      | some pinned => rw [signing] at shown; cases shown; trivial
    · intro past world event next executed held _ taken
      exact signs_step executed held taken
  refine ⟨?_, ?_, ?_⟩
  · intro index thread token shown holds
    exact (sound events world executed index thread shown).token holds
  · intro first index second before after _ partway taken
    obtain ⟨shared, session, stepped, rfl⟩ := World.step_some.mp taken
    cases was : before.sessions index with
    | keys phase => rw [was] at stepped; cases stepped
    | signing thread =>
      rw [was] at stepped
      obtain ⟨⟨_, later⟩, moved, same⟩ := Option.map_eq_some_iff.mp stepped
      cases same
      obtain ⟨token, holds, written⟩ := audit_token (sound first before partway index thread was) moved
      exact ⟨later, token, World.moved_self .., holds, written⟩
  · intro index pinned signing
    have started : ∃ thread, (initial store signs).sessions index = .signing thread ∧ Restores pinned thread :=
      ⟨⟨pinned, .idle⟩, by simp [initial, signing], rfl⟩
    obtain ⟨thread, shown, restores⟩ := run_invariant
      (fun world => ∃ thread, world.sessions index = .signing thread ∧ Restores pinned thread)
      (fun _ _ _ held taken => restores_step taken held) started executed
    exact ⟨thread, shown, restores.outside⟩

def firstConfig : JwtConfig :=
  ⟨KeyRaces.firstKey.key, KeyRaces.firstKey.key.kid, "RS256", "http://localhost:8000", 300⟩

def firstToken : IdToken where
  header := getEncodeHeader firstConfig
  claims := getClientClaims firstConfig "app" 6000000
  alg := "RS256"
  key := KeyRaces.firstKey.key

/-- The first token of the service is signed with the key that its call bootstraps,
while another thread rotates to a second one. -/
def signsWhileRotating : List (Nat × Action) :=
  [(0, .signing .call), (0, .signing .read), (0, .signing (.bootstrap KeyRaces.firstKey 5)),
    (0, .signing (.hook .getEncodeHeader KeyRaces.firstKey 5)),
    (1, .keys (.rotate KeyRaces.secondKey 5 "admin")), (1, .keys .refresh), (1, .keys (.readKey "kid-2" 5)),
    (1, .keys .readActives), (1, .keys (.activate "admin")),
    (0, .signing (.hook .getClientAlgorithm KeyRaces.firstKey 5)),
    (0, .signing (.hook (.getClientClaims "app" 6000000) KeyRaces.firstKey 5)),
    (0, .signing (.hook .resolveClientPrivateKey KeyRaces.firstKey 5)), (0, .signing (.build firstToken)),
    (0, .signing .audit), (0, .signing .reset)]

theorem first_token_of_one_row : ∃ world,
    run (World.step (advanceSession {} KeyRaces.twoKeys)) (initial .empty fun index => if index = 0 then some none else none)
        signsWhileRotating = some world ∧
      ∃ row, SignedBy {} KeyRaces.twoKeys row firstToken := by
  refine ⟨_, rfl, ?_⟩
  obtain ⟨row, -, signed⟩ := (id_token_of_one_row {} KeyRaces.twoKeys .empty (fun index => if index = 0 then some none else none)
    signsWhileRotating _ rfl).1 0 _ firstToken rfl rfl
  exact ⟨row, signed⟩

end Satoidc.Proofs.IdTokenSigning
