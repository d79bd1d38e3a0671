import Satoidc.Proofs.SignInBinding

/-! Whom a wallet signs in: what a callback completes reaches the browser that showed
its k1, and reaches it once. -/

namespace Satoidc.Proofs.SignInSessions
open Foundation SignIn LnurlCallback CallbackEffects WalletChanges

section sound
variable {env : Settings} {curve : Secp256k1} {host : Host} {db : Db} {past : List SignIn.Event} {state next : State}
  {event : SignIn.Event}

/-- Nothing more comes of an event. -/
def Spent (env : Settings) (curve : Secp256k1) (host : Host) (db : Db) (number : Nat) (past : List SignIn.Event)
    (state : State) :
    Prop :=
  (∀ nonce, source env curve host db nonce past ≠ some number) ∧
    ∃ announced, state.emitted[number]? = some announced ∧
      ∀ index, Displayed past index announced.k1 → (index, number) ∉ state.pending

theorem step_spent {number : Nat} (sound : Sound env curve host db past state)
    (partway : run (SignIn.step env curve host) (SignIn.initial db) past = some state)
    (taken : SignIn.step env curve host state event = some next) (spent : Spent env curve host db number past state) :
    Spent env curve host db number (past ++ [event]) next := by
  have moved := step_moved taken
  obtain ⟨left, announced, emitted, settled⟩ := spent
  refine ⟨?_, announced, moved.grows.emitted number announced emitted, ?_⟩
  · intro nonce
    rw [source_snoc partway taken]
    rcases moved.storage nonce with ⟨quiet, -⟩ | ⟨removed, -⟩ | ⟨index, page, taking, other, rfl, due, shown, -,
      found, completes, entered, -⟩
    · rw [quiet]
      exact left nonce
    · rw [removed]
      exact Option.some_ne_none _ ∘ Eq.symm
    · rw [entered]
      intro same
      cases same
      cases emitted.symm.trans found
      exact settled index (sound.shows index page _ shown completes) due
  · intro index shown still
    obtain ⟨inside, -⟩ := List.getElem?_eq_some_iff.mp emitted
    obtain ⟨due, -⟩ := moved.due sound.pending inside still
    rcases displayed_snoc.mp shown with old | ⟨now, refreshes⟩
    · exact settled index old due
    · obtain ⟨action, issued, -⟩ := sound.emitted number announced emitted
      exact (moved.draws refreshes).2 _ issued

/-- The redirect that uses an entry is the last to use the event behind it. -/
theorem redirect_spent {browser : Nat} {cookie : Session} {redirectTo : Option String} {nonce : String} {user : UserId}
    {number : Nat} (sound : Sound env curve host db past state)
    (partway : run (SignIn.step env curve host) (SignIn.initial db) past = some state)
    (taken : SignIn.step env curve host state (.request browser cookie (.lnurlRedirect redirectTo)) = some next)
    (signsIn : SignsIn host state cookie redirectTo nonce user) (from' : source env curve host db nonce past = some number) :
    Spent env curve host db number (past ++ [.request browser cookie (.lnurlRedirect redirectTo)]) next := by
  have moved := step_moved taken
  obtain ⟨index, page, announced, shown, holds, emitted, displayed, spent⟩ := sound.sources nonce number from'
  obtain ⟨inside, -⟩ := List.getElem?_eq_some_iff.mp emitted
  obtain ⟨storage, target, answered⟩ := signsIn.session
  have removes : ∀ other, enters host other state (.request browser cookie (.lnurlRedirect redirectTo)) =
      if nonce = other then some none else none := by
    intro other
    simp [enters, signsIn.current, answered, Except.isOk, Except.toBool]
  refine ⟨?_, announced, moved.grows.emitted number announced emitted, ?_⟩
  · intro other
    rw [source_snoc partway taken, removes]
    by_cases same : nonce = other
    · rw [if_pos same]
      exact Option.some_ne_none _ ∘ Eq.symm
    · rw [if_neg same]
      intro again
      obtain ⟨place, another, told, found, named, known, shows, -⟩ := sound.sources other number again
      cases emitted.symm.trans known
      cases sound.once index place _ displayed shows
      cases shown.symm.trans found
      exact same (holds.symm.trans named)
  · intro place shows still
    rcases displayed_snoc.mp shows with old | ⟨now, refreshes⟩
    · cases sound.once index place _ displayed old
      exact spent (moved.due sound.pending inside still).1
    · cases refreshes

/-- A redirect leaves the session as it was or signs in the user that is entered. -/
theorem redirect_signsIn {cookie session : Session} {redirectTo : Option String} {storage : String → Option UserId}
    {target : String} (redirected : lnurlRedirect host state.storage cookie redirectTo = .ok (storage, session, target)) :
    session = cookie ∨ ∃ nonce user, SignsIn host state cookie redirectTo nonce user ∧
      session = { cookie with userId := some user } := by
  rcases redirect_cases redirected with ⟨-, -, same⟩ | ⟨expected, current, -, same⟩
  · exact .inl same
  · cases entry : if truthy (some expected) then state.storage expected else none with
    | none =>
      rw [entry, Option.none_or] at same
      exact .inl same
    | some user =>
      rw [entry, Option.some_or] at same
      refine .inr ⟨expected, user, ⟨current, ?_, storage, target, same ▸ redirected⟩, same⟩
      split at entry
      · exact entry
      · cases entry

end sound

/-- The browser and the event behind an entry: one page of the browser has the nonce,
no other page has shown the k1, and the callback authenticated the user. -/
def Bound (env : Settings) (curve : Secp256k1) (host : Host) (db : Db) (past : List SignIn.Event) (state : State)
    (browser : Nat) (nonce : String) (user : UserId) (number : Nat) : Prop :=
  ∃ index page announced, state.pages[index]? = some page ∧ page.browser = browser ∧ page.nonce = nonce ∧
    (∀ other later, state.pages[other]? = some later → later.nonce = nonce → other = index) ∧
    state.emitted[number]? = some announced ∧ Displayed past index announced.k1 ∧
    (∀ other, Displayed past other announced.k1 → other = index) ∧
    Authenticated env curve host db past number announced.k1 user

/-- What the redirects of a run do to sessions. -/
structure WalletSessions (env : Settings) (curve : Secp256k1) (host : Host) (db : Db) (events : List SignIn.Event) : Prop where
  only : ∀ first browser cookie redirectTo second before storage session target,
    events = first ++ .request browser cookie (.lnurlRedirect redirectTo) :: second →
    run (SignIn.step env curve host) (SignIn.initial db) first = some before →
    lnurlRedirect host before.storage cookie redirectTo = .ok (storage, session, target) →
    session = cookie ∨ ∃ nonce user, SignsIn host before cookie redirectTo nonce user ∧
      session = { cookie with userId := some user }
  bound : ∀ first browser cookie redirectTo second before nonce user,
    events = first ++ .request browser cookie (.lnurlRedirect redirectTo) :: second →
    run (SignIn.step env curve host) (SignIn.initial db) first = some before →
    SignsIn host before cookie redirectTo nonce user →
    ∃ number, source env curve host db nonce first = some number ∧
      Bound env curve host db first before browser nonce user number
  once : ∀ first browser cookie redirectTo middle later other target second before between nonce user again another,
    events = first ++ .request browser cookie (.lnurlRedirect redirectTo) ::
      (middle ++ .request later other (.lnurlRedirect target) :: second) →
    run (SignIn.step env curve host) (SignIn.initial db) first = some before →
    run (SignIn.step env curve host) (SignIn.initial db)
      (first ++ .request browser cookie (.lnurlRedirect redirectTo) :: middle) = some between →
    SignsIn host before cookie redirectTo nonce user → SignsIn host between other target again another →
    source env curve host db nonce first ≠
      source env curve host db again (first ++ .request browser cookie (.lnurlRedirect redirectTo) :: middle)

section runs
variable {env : Settings} {curve : Secp256k1} {host : Host} {db : Db} {past : List SignIn.Event} {state : State}

theorem sound_run {events : List SignIn.Event} {final : State}
    (fresh : Along (SignIn.step env curve host) Fresh (SignIn.initial db) events)
    (executed : run (SignIn.step env curve host) (SignIn.initial db) events = some final) :
    Sound env curve host db events final :=
  run_history (Sound env curve host db) initial_sound
    (fun _ _ _ _ partway held allowed taken => step_sound held allowed partway taken) fresh executed

theorem value_injective {first second : LnurlAction} (same : first.value = second.value) : first = second := by
  cases first <;> cases second <;> first | rfl | simp [LnurlAction.value] at same

/-- What an event of a sign-in page says was authenticated. -/
theorem Sound.bound (sound : Sound env curve host db past state) {browser : Nat} {cookie : Session}
    {redirectTo : Option String} {nonce : String} {user : UserId} (brought : cookie ∈ state.cookies browser)
    (signsIn : SignsIn host state cookie redirectTo nonce user) :
    ∃ number, source env curve host db nonce past = some number ∧
      Bound env curve host db past state browser nonce user number := by
  obtain ⟨number, announced, from', emitted, named⟩ := sound.entries nonce user signsIn.entry
  obtain ⟨index, page, told, shown, holds, known, displayed, -⟩ := sound.sources nonce number from'
  cases emitted.symm.trans known
  obtain ⟨owned, rendered, belongs, same⟩ := sound.cookies browser cookie nonce brought signsIn.current
  have one : owned = page := sound.nonces.unique rendered (List.mem_of_getElem? shown) (same.trans holds.symm)
  subst one
  have alone : ∀ other later, state.pages[other]? = some later → later.nonce = nonce → other = index := by
    intro other later found another
    obtain ⟨inside, -⟩ := List.getElem?_eq_some_iff.mp found
    have bound : other < (state.pages.map Page.nonce).length := by simpa using inside
    apply (List.getElem?_inj bound sound.nonces).mp
    rw [List.getElem?_map, List.getElem?_map, found, shown, Option.map_some, Option.map_some, another, holds]
  obtain ⟨action, issued, signIn⟩ := sound.emitted number announced emitted
  obtain ⟨drawn, found, stored⟩ := sound.issued index announced.k1 displayed
  have kind : action = .register ∨ action = .login := by
    rw [← value_injective (stored.unique issued)]
    cases drawn.kind with
    | login => exact .inr rfl
    | register => exact .inl rfl
  obtain ⟨account, said, authenticated⟩ := signIn kind
  cases said.symm.trans named
  exact ⟨number, from', index, owned, announced, shown, belongs, holds, alone, emitted, displayed,
    fun other shows => sound.once other index _ shows displayed, authenticated⟩

theorem spent_run {number : Nat} {first second : List SignIn.Event} {middle final : State}
    (fresh : Along (SignIn.step env curve host) Fresh (SignIn.initial db) (first ++ second))
    (partway : run (SignIn.step env curve host) (SignIn.initial db) first = some middle)
    (rest : run (SignIn.step env curve host) middle second = some final)
    (spent : Spent env curve host db number first middle) : Spent env curve host db number (first ++ second) final := by
  induction second using List.reverseRecOn generalizing final with
  | nil => cases rest; rw [List.append_nil]; exact spent
  | append_singleton second event ih =>
    obtain ⟨reached, until', taken⟩ := run_snoc_some.mp rest
    rw [← List.append_assoc] at fresh ⊢
    have executed := run_append_some.mpr ⟨middle, partway, until'⟩
    have before := (fresh.append executed).1
    exact step_spent (sound_run before executed) executed taken (ih before until')

end runs

/-- A wallet signs in the browser whose page showed the k1 that it completed, and once. -/
theorem wallet_sessions (env : Settings) (curve : Secp256k1) (host : Host) (db : Db) (events : List SignIn.Event) (final : State)
    (fresh : Along (SignIn.step env curve host) Fresh (SignIn.initial db) events)
    (executed : run (SignIn.step env curve host) (SignIn.initial db) events = some final) :
    WalletSessions env curve host db events := by
  -- a redirect that is in the run was sent with a cookie of its browser
  have sends : ∀ {first second before browser cookie redirectTo},
      events = first ++ .request browser cookie (.lnurlRedirect redirectTo) :: second →
      run (SignIn.step env curve host) (SignIn.initial db) first = some before →
      ∃ after, SignIn.step env curve host before (.request browser cookie (.lnurlRedirect redirectTo)) = some after ∧
        cookie ∈ before.cookies browser := by
    intro first second before browser cookie redirectTo split partway
    rw [split] at executed
    obtain ⟨_, same, rest⟩ := run_append_some.mp executed
    cases partway.symm.trans same
    obtain ⟨after, taken, -⟩ := run_cons_some.mp rest
    refine ⟨after, taken, ?_⟩
    by_contra missing
    simp [SignIn.step, missing] at taken
  have sound : ∀ {first second before}, events = first ++ second →
      run (SignIn.step env curve host) (SignIn.initial db) first = some before → Sound env curve host db first before := by
    intro first second before split partway
    rw [split] at fresh
    exact sound_run (fresh.append partway).1 partway
  refine ⟨?_, ?_, ?_⟩
  · intro first browser cookie redirectTo second before storage session target _ _ redirected
    exact redirect_signsIn redirected
  · intro first browser cookie redirectTo second before nonce user split partway signsIn
    obtain ⟨after, -, brought⟩ := sends split partway
    exact (sound split partway).bound brought signsIn
  · intro first browser cookie redirectTo middle later other target second before between nonce user again another split partway
      until' signsIn resigns
    obtain ⟨after, taken, -⟩ := sends split partway
    obtain ⟨number, -, from', -⟩ := (sound split partway).entries nonce user signsIn.entry
    have spent := redirect_spent (sound split partway) partway taken signsIn from'
    have through : run (SignIn.step env curve host) (SignIn.initial db)
        (first ++ [.request browser cookie (.lnurlRedirect redirectTo)]) = some after :=
      run_snoc_some.mpr ⟨before, partway, taken⟩
    rw [← List.singleton_append, ← List.append_assoc] at until'
    obtain ⟨_, same, rest⟩ := run_append_some.mp until'
    cases through.symm.trans same
    have earlier : events = (first ++ [.request browser cookie (.lnurlRedirect redirectTo)] ++ middle) ++
        .request later other (.lnurlRedirect target) :: second := by
      rw [split]
      simp
    rw [earlier] at fresh
    have left := (spent_run (fresh.append until').1 through rest spent).1 again
    rw [from']
    intro same
    apply left
    rw [same]
    simp

def registration : LnurlAuthCallbackIn where
  k1 := "6666666666666666666666666666666666666666666666666666666666666666"
  sig := "0000000000000008"
  key := "020000000000000000000000000000000000000000000000000000000000000008"
  action := some .register
  k1Length := String.length_ofList
  sigLength := by decide
  keyLength := String.length_ofList

def registering : List SignIn.Event :=
  [.request 0 {} (.page .register none "n"), .refresh 0 registration.k1 0, .callback registration 0 7, .handle 0 0,
    .request 0 { loginNonce := some "n" } (.lnurlRedirect none)]

def noAccounts : Db := ⟨⟨[], .nil⟩, ⟨[], List.nodup_nil⟩⟩

def otherRegistration : LnurlAuthCallbackIn where
  k1 := "eeeeeeeeeeeeeeeeeeeeeeeeeeeeeeeeeeeeeeeeeeeeeeeeeeeeeeeeeeeeeeee"
  sig := "000000000000000e"
  key := "02000000000000000000000000000000000000000000000000000000000000000e"
  action := some .register
  k1Length := String.length_ofList
  sigLength := by decide
  keyLength := String.length_ofList

/-- Two browsers show a page each, and the handlers of both pages get both events. -/
def registeringTwice : List SignIn.Event :=
  [.request 0 {} (.page .register none "n"), .request 1 {} (.page .register none "m"), .refresh 0 registration.k1 0,
    .refresh 1 otherRegistration.k1 0] ++
    [.callback registration 0 7, .callback otherRegistration 0 8, .handle 1 0, .handle 0 0, .handle 1 1, .handle 0 1] ++
    [.request 1 { loginNonce := some "m" } (.lnurlRedirect none), .request 0 { loginNonce := some "n" } (.lnurlRedirect none)]

/-- The browser has the k1 of the query on its page. -/
def pageShown : State :=
  (run (SignIn.step {} (.answering (.ok true)) .ascii) (SignIn.initial noAccounts) (registering.take 2)).getD
    (SignIn.initial noAccounts)

theorem pageShown_reached : run (SignIn.step {} (.answering (.ok true)) .ascii) (SignIn.initial noAccounts)
    (registering.take 2) = some pageShown := rfl

def answered (query : LnurlAuthCallbackIn) (uid : UserId) : LnurlAuthChallenge where
  k1 := query.k1
  userId := some uid
  action := "register"
  consumed := true
  createdAt := 0

def oneAccount : Db := ⟨⟨[walletUser 7 registration.key], by decide⟩, ⟨[answered registration 7], List.nodup_singleton _⟩⟩

theorem registration_emits : SignIn.step {} (.answering (.ok true)) .ascii pageShown (.callback registration 0 7) =
    some ({ pageShown with db := oneAccount }.emit ⟨registration.k1, some 7⟩) :=
  callback_emits (Eq.trans (Verified.callback ⟨rfl, rfl, verify_answering rfl rfl rfl⟩) rfl)

/-- Both browsers have a k1 on their pages. -/
def pagesShown : State :=
  (run (SignIn.step {} (.answering (.ok true)) .ascii) (SignIn.initial noAccounts) (registeringTwice.take 4)).getD
    (SignIn.initial noAccounts)

def firstAccount : Db :=
  ⟨⟨[walletUser 7 registration.key], by decide⟩,
    ⟨[answered registration 7, { k1 := otherRegistration.k1, action := "register", createdAt := 0 }], by decide⟩⟩

def twoAccounts : Db :=
  ⟨⟨[walletUser 7 registration.key, walletUser 8 otherRegistration.key], by decide⟩,
    ⟨[answered registration 7, answered otherRegistration 8], by decide⟩⟩

def firstEmitted : State := { pagesShown with db := firstAccount }.emit ⟨registration.k1, some 7⟩

def bothEmitted : State := { firstEmitted with db := twoAccounts }.emit ⟨otherRegistration.k1, some 8⟩

theorem first_emits :
    SignIn.step {} (.answering (.ok true)) .ascii pagesShown (.callback registration 0 7) = some firstEmitted :=
  callback_emits (Eq.trans (Verified.callback ⟨rfl, rfl, verify_answering rfl rfl rfl⟩) rfl)

theorem other_emits :
    SignIn.step {} (.answering (.ok true)) .ascii firstEmitted (.callback otherRegistration 0 8) = some bothEmitted :=
  callback_emits (Eq.trans (Verified.callback ⟨rfl, rfl, verify_answering rfl rfl rfl⟩) rfl)

/-- Each wallet signs in the browser whose page it has scanned. -/
theorem registered_wallet_sessions :
    ∃ final, run (SignIn.step {} (.answering (.ok true)) .ascii) (SignIn.initial noAccounts) registeringTwice = some final ∧
      { userId := some 7, loginNonce := some "n" } ∈ final.cookies 0 ∧
      { userId := some 8, loginNonce := some "m" } ∈ final.cookies 1 ∧
      WalletSessions {} (.answering (.ok true)) .ascii noAccounts registeringTwice := by
  have executed : run (SignIn.step {} (.answering (.ok true)) .ascii) (SignIn.initial noAccounts)
      (registeringTwice.take 4 ++ registeringTwice.drop 4) = some _ :=
    run_append_some.mpr ⟨pagesShown, rfl, run_cons_some.mpr ⟨_, first_emits, run_cons_some.mpr ⟨_, other_emits, rfl⟩⟩⟩
  refine ⟨_, executed, List.mem_cons_self, List.mem_cons_self, ?_⟩
  apply wallet_sessions {} (.answering (.ok true)) .ascii noAccounts registeringTwice _ ?_ executed
  refine .cons rfl (List.forall_mem_nil _) (.cons rfl ?_ (.cons rfl trivial (.cons rfl trivial ?_)))
  · intro page member
    cases List.mem_singleton.mp member
    decide
  · refine .cons first_emits trivial (.cons other_emits trivial ?_)
    refine .cons rfl trivial (.cons rfl trivial (.cons rfl trivial (.cons rfl trivial ?_)))
    exact .cons rfl trivial (.cons rfl trivial trivial)

end Satoidc.Proofs.SignInSessions
