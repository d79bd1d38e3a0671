import Satoidc.SignIn
import Satoidc.Foundation.History
import Satoidc.Proofs.WalletChanges

/-! The binding of k1, page, nonce and session. A k1 is shown by one page, the page has
a nonce of its own, and the nonce is in the sessions of one browser, whatever the order
of requests, callbacks and handlers. -/

namespace Satoidc.Proofs.SignInSessions
open Foundation SignIn LnurlCallback CallbackEffects WalletChanges

/-- The page has shown the k1. -/
def Displayed (past : List SignIn.Event) (page : Nat) (k1 : String) : Prop := ∃ now, .refresh page k1 now ∈ past

/-- What a step does to the entry that `lnurl_auth_temp_storage` has under a nonce:
a page enters the event it takes, a redirect removes the entry. -/
def enters (host : Host) (nonce : String) (state : State) : SignIn.Event → Option (Option Nat)
  | .handle index number =>
    match state.pages[index]?, state.emitted[number]? with
    | some page, some event => if page.nonce = nonce ∧ some event.k1 = page.k1 then some (some number) else none
    | _, _ => none
  | .request _ cookie (.lnurlRedirect redirectTo) =>
    if cookie.loginNonce = some nonce ∧ (lnurlRedirect host state.storage cookie redirectTo).isOk then some none else none
  | _ => none

/-- The event behind the entry under a nonce after a run. -/
def source (env : Settings) (curve : Secp256k1) (host : Host) (db : Db) (nonce : String)
    (past : List SignIn.Event) : Option Nat :=
  lastWritten (SignIn.step env curve host) (enters host nonce) (SignIn.initial db) none past

/-- A redirect that puts the user entered under the session's nonce into the session. -/
structure SignsIn (host : Host) (state : State) (cookie : Session) (redirectTo : Option String) (nonce : String)
    (user : UserId) :
    Prop where
  current : cookie.loginNonce = some nonce
  entry : state.storage nonce = some user
  session : ∃ storage target,
    lnurlRedirect host state.storage cookie redirectTo = .ok (storage, { cookie with userId := some user }, target)

/-- The event was emitted by a callback that authenticated the user by a linking key. -/
def Authenticated (env : Settings) (curve : Secp256k1) (host : Host) (db : Db) (past : List SignIn.Event) (number : Nat)
    (k1 : String) (user : UserId) : Prop :=
  ∃ first query now uuid second before, past = first ++ .callback query now uuid :: second ∧
    run (SignIn.step env curve host) (SignIn.initial db) first = some before ∧ before.emitted.length = number ∧
    query.k1 = k1 ∧ verify curve query.k1 query.key query.sig = .ok true ∧
    ∃ row ∈ (lnurlAuthCallback env curve now uuid before.db query).1.users.rows,
      row.lnurlPubkey = some query.key ∧ row.id = user

/-- A challenge of the action is stored under the k1. -/
def Issued (db : Db) (k1 action : String) : Prop := ∃ row ∈ db.challenges.rows, row.k1 = k1 ∧ row.action = action

def KeepsIssued (before after : Db) : Prop := ∀ k1 action, Issued before k1 action → Issued after k1 action

theorem Issued.unique {db : Db} {k1 first second : String} (left : Issued db k1 first) (right : Issued db k1 second) :
    first = second := by
  obtain ⟨row, member, same, rfl⟩ := left
  obtain ⟨other, inside, again, rfl⟩ := right
  rw [db.challenges.valid.unique member inside (same.trans again.symm)]

theorem KeepsIssued.refl (db : Db) : KeepsIssued db db := fun _ _ issued => issued

theorem KeepsIssued.write {db : Db} {users : Users} {challenge : LnurlAuthChallenge} :
    KeepsIssued db (db.writeChallenge users challenge) := by
  intro k1 action issued
  obtain ⟨row, member, same, acts⟩ := issued
  refine ⟨_, mem_update.mpr ⟨row, member, rfl⟩, ?_⟩
  split
  · exact ⟨same, acts⟩
  · exact ⟨same, acts⟩

section moved
variable {env : Settings} {curve : Secp256k1} {host : Host}

theorem callback_emits {state : State} {now : Instant} {uuid : UserId} {query : LnurlAuthCallbackIn} {after : Db}
    {passed : Option LnurlAuthChallenge} {outcome : Except PyError Response} {event : LnurlAuthEvent}
    (ended : lnurlAuthCallback env curve now uuid state.db query = (after, .finished passed ⟨outcome, some event⟩)) :
    SignIn.step env curve host state (.callback query now uuid) = some ({ state with db := after }.emit event) := by
  simp only [SignIn.step, ended]

theorem callback_keepsIssued {now : Instant} {uuid : UserId} {db : Db} {query : LnurlAuthCallbackIn} :
    KeepsIssued db (lnurlAuthCallback env curve now uuid db query).1 := by
  have effect : Effect env curve now uuid db query (lnurlAuthCallback env curve now uuid db query) := callback_effect
  generalize lnurlAuthCallback env curve now uuid db query = result at effect
  cases effect with
  | idle => exact .refl _
  | registers | binds | links => exact .write

/-- A step of the machine. -/
inductive Moved (env : Settings) (curve : Secp256k1) (host : Host) (state : State) : SignIn.Event → State → Prop where
  | refuses {browser cookie request} (member : cookie ∈ state.cookies browser)
      (raised : ∀ redirectTo, request = .lnurlRedirect redirectTo →
        (lnurlRedirect host state.storage cookie redirectTo).isOk = false) :
      Moved env curve host state (.request browser cookie request) state
  /-- An answer that gives the browser no other nonce. -/
  | answers {browser cookie request session db} (member : cookie ∈ state.cookies browser)
      (other : ∀ redirectTo, request ≠ .lnurlRedirect redirectTo)
      (nonce : session.loginNonce = none ∨ session.loginNonce = cookie.loginNonce)
      (challenges : db.challenges = state.db.challenges) :
      Moved env curve host state (.request browser cookie request) { state.give browser session with db }
  | opens {browser cookie kind redirectTo nonce target} (member : cookie ∈ state.cookies browser) :
      Moved env curve host state (.request browser cookie (.page kind redirectTo nonce))
        { state.give browser { cookie with loginNonce := some nonce } with
          pages := state.pages ++ [{ browser, nonce, kind, redirectTo := target }] }
  | redirects {browser cookie redirectTo storage session target} (member : cookie ∈ state.cookies browser)
      (redirected : lnurlRedirect host state.storage cookie redirectTo = .ok (storage, session, target)) :
      Moved env curve host state (.request browser cookie (.lnurlRedirect redirectTo))
        { state.give browser session with storage }
  | refreshes {index k1 now page db} (shown : state.pages[index]? = some page)
      (added : Accounts.addChallenge state.db { k1, action := page.kind.action.value, createdAt := now } = some db) :
      Moved env curve host state (.refresh index k1 now)
        { state with db, pages := state.pages.set index { page with k1 := some k1 } }
  | ends {query now uuid} :
      Moved env curve host state (.callback query now uuid)
        { state with db := (lnurlAuthCallback env curve now uuid state.db query).1 }
  | emits {query now uuid event}
      (announces : Announces env curve now state.db (lnurlAuthCallback env curve now uuid state.db query).1 query event) :
      Moved env curve host state (.callback query now uuid)
        ({ state with db := (lnurlAuthCallback env curve now uuid state.db query).1 }.emit event)
  | ignores {index number page event} (due : (index, number) ∈ state.pending) (shown : state.pages[index]? = some page)
      (emitted : state.emitted[number]? = some event) (other : some event.k1 ≠ page.k1) :
      Moved env curve host state (.handle index number) { state with pending := state.pending.erase (index, number) }
  | takes {index number page event location} (due : (index, number) ∈ state.pending)
      (shown : state.pages[index]? = some page) (emitted : state.emitted[number]? = some event)
      (completes : some event.k1 = page.k1) :
      Moved env curve host state (.handle index number)
        { state with
          storage := Function.update state.storage page.nonce event.userId
          pages := state.pages.set index { page with location }
          pending := state.pending.erase (index, number) }

theorem respond_moved {state : State} {browser : Nat} {cookie : Session} (member : cookie ∈ state.cookies browser)
    (request : SignIn.Request) :
    Moved env curve host state (.request browser cookie request) (respond host state browser cookie request) := by
  have refused : (∀ redirectTo, request ≠ .lnurlRedirect redirectTo) →
      Moved env curve host state (.request browser cookie request) state := fun other =>
    .refuses member fun redirectTo same => absurd same (other redirectTo)
  have answered : ∀ session db, (∀ redirectTo, request ≠ .lnurlRedirect redirectTo) →
      (session.loginNonce = none ∨ session.loginNonce = cookie.loginNonce) → db.challenges = state.db.challenges →
      Moved env curve host state (.request browser cookie request) { state.give browser session with db } :=
    fun _ _ other nonce challenges => .answers member other nonce challenges
  cases request with
  | page kind redirectTo nonce =>
    simp only [respond, openPage]
    cases safeRedirect host redirectTo with
    | error raised => exact refused (by simp)
    | ok target =>
      simp only [Bind.bind, Except.bind]
      split
      next => exact refused (by simp)
      next url redirected => exact answered cookie state.db (by simp) (.inr rfl) rfl
      next session page shown =>
        split at shown
        · cases shown
        · cases shown
          exact .opens member
  | lnurlRedirect redirectTo =>
    simp only [respond]
    cases redirected : lnurlRedirect host state.storage cookie redirectTo with
    | error raised =>
      refine .refuses member ?_
      intro other same
      cases same
      rw [redirected]
      rfl
    | ok result => exact .redirects member redirected
  | loginPost form =>
    have nonce := loginPost_nonce host state.db cookie form
    simp only [respond]
    cases posted : loginPost host state.db cookie form with
    | mk session outcome =>
      rw [posted] at nonce
      cases outcome with
      | error raised => exact refused (by simp)
      | ok target => exact answered session state.db (by simp) (.inl nonce) rfl
  | registerPost uuid salt form =>
    obtain ⟨nonce, challenges⟩ := registerPost_keeps host uuid salt state.db cookie form
    simp only [respond]
    cases posted : registerPost host uuid salt state.db cookie form with
    | mk db result =>
      cases result with
      | mk session outcome =>
        rw [posted] at nonce challenges
        cases outcome with
        | error raised => exact refused (by simp)
        | ok target => exact answered session db (by simp) (.inr nonce) challenges
  | logout => exact answered {} state.db (by simp) (.inl rfl) rfl

theorem step_moved {state next : State} {event : SignIn.Event} (taken : SignIn.step env curve host state event = some next) :
    Moved env curve host state event next := by
  cases event with
  | request browser cookie request =>
    simp only [SignIn.step] at taken
    split at taken
    next member => cases taken; exact respond_moved member request
    next => cases taken
  | refresh index k1 now =>
    simp only [SignIn.step, refreshQrcode, Option.bind_eq_bind, Option.bind_eq_some_iff, Option.map_eq_some_iff] at taken
    obtain ⟨page, shown, result, ⟨db, added, rfl⟩, same⟩ := taken
    cases same
    exact .refreshes shown added
  | callback query now uuid =>
    have truthful : Truthful env curve now state.db query (lnurlAuthCallback env curve now uuid state.db query) :=
      callback_truthful
    simp only [SignIn.step] at taken
    split at taken
    next event ended =>
      cases taken
      exact .emits (truthful _ _ event ended rfl)
    next => cases taken; exact .ends
  | handle index number =>
    simp only [SignIn.step] at taken
    split at taken
    next due =>
      simp only [Option.bind_eq_bind, Option.bind_eq_some_iff] at taken
      obtain ⟨page, shown, event, emitted, same⟩ := taken
      cases same
      by_cases completes : some event.k1 = page.k1
      · simp only [eventHandler, completes, if_true]
        exact .takes due shown emitted completes
      · simp only [eventHandler, completes, if_false]
        have unchanged : state.pages.set index page = state.pages := by
          obtain ⟨inside, same⟩ := List.getElem?_eq_some_iff.mp shown
          rw [← same, List.set_getElem_self]
        rw [unchanged]
        exact .ignores due shown emitted completes
    next => cases taken

end moved

theorem displayed_snoc {past : List SignIn.Event} {event : SignIn.Event} {index : Nat} {k1 : String} :
    Displayed (past ++ [event]) index k1 ↔ Displayed past index k1 ∨ ∃ now, event = .refresh index k1 now := by
  simp only [Displayed, List.mem_append, List.mem_singleton, exists_or]
  constructor
  · intro shown
    exact shown.imp_right fun ⟨now, same⟩ => ⟨now, same.symm⟩
  · intro shown
    exact shown.imp_right fun ⟨now, same⟩ => ⟨now, same.symm⟩

/-- A nonce that a render draws is new. -/
def Fresh (state : State) : SignIn.Event → Prop
  | .request _ _ (.page _ _ nonce) => ∀ page ∈ state.pages, page.nonce ≠ nonce
  | _ => True

/-- What holds of an event since it was emitted. -/
def Emitted (env : Settings) (curve : Secp256k1) (host : Host) (db : Db) (past : List SignIn.Event) (state : State)
    (number : Nat) (event : LnurlAuthEvent) : Prop :=
  ∃ action, Issued state.db event.k1 (LnurlAction.value action) ∧
    (action = .register ∨ action = .login → ∃ user, event.userId = some user ∧
      Authenticated env curve host db past number event.k1 user)

structure Sound (env : Settings) (curve : Secp256k1) (host : Host) (db : Db) (past : List SignIn.Event) (state : State) :
    Prop where
  nonces : Keyed Page.nonce state.pages
  cookies : ∀ browser cookie nonce, cookie ∈ state.cookies browser → cookie.loginNonce = some nonce →
    ∃ page ∈ state.pages, page.browser = browser ∧ page.nonce = nonce
  shows : ∀ index page k1, state.pages[index]? = some page → page.k1 = some k1 → Displayed past index k1
  issued : ∀ index k1, Displayed past index k1 →
    ∃ page, state.pages[index]? = some page ∧ Issued state.db k1 page.kind.action.value
  once : ∀ first second k1, Displayed past first k1 → Displayed past second k1 → first = second
  emitted : ∀ number event, state.emitted[number]? = some event → Emitted env curve host db past state number event
  pending : state.pending.Nodup ∧ ∀ index number, (index, number) ∈ state.pending → number < state.emitted.length
  entries : ∀ nonce user, state.storage nonce = some user →
    ∃ number event, source env curve host db nonce past = some number ∧ state.emitted[number]? = some event ∧
      event.userId = some user
  sources : ∀ nonce number, source env curve host db nonce past = some number →
    ∃ index page event, state.pages[index]? = some page ∧ page.nonce = nonce ∧ state.emitted[number]? = some event ∧
      Displayed past index event.k1 ∧ (index, number) ∉ state.pending

section sound
variable {env : Settings} {curve : Secp256k1} {host : Host} {db : Db} {past : List SignIn.Event} {state next : State}
  {event : SignIn.Event}

theorem initial_sound : Sound env curve host db [] (SignIn.initial db) where
  nonces := List.nodup_nil
  cookies := by
    intro browser cookie nonce member has
    cases List.mem_singleton.mp member
    cases has
  shows := by
    intro index page k1 shown
    cases shown
  issued := by
    intro index k1 ⟨now, member⟩
    cases member
  once := by
    intro first second k1 ⟨now, member⟩
    cases member
  emitted := by
    intro number event found
    cases found
  pending := ⟨List.nodup_nil, fun _ _ due => by cases due⟩
  entries := by
    intro nonce user entry
    cases entry
  sources := by
    intro nonce number from'
    cases from'

theorem Authenticated.extend {number : Nat} {k1 : String} {user : UserId} (event : SignIn.Event)
    (authenticated : Authenticated env curve host db past number k1 user) :
    Authenticated env curve host db (past ++ [event]) number k1 user := by
  obtain ⟨first, query, now, uuid, second, before, rfl, rest⟩ := authenticated
  exact ⟨first, query, now, uuid, second ++ [event], before, by simp, rest⟩

theorem Emitted.extend {number : Nat} {announced : LnurlAuthEvent} (event : SignIn.Event)
    (emitted : Emitted env curve host db past state number announced) (keeps : KeepsIssued state.db next.db) :
    Emitted env curve host db (past ++ [event]) next number announced := by
  obtain ⟨action, issued, signIn⟩ := emitted
  refine ⟨action, keeps _ _ issued, ?_⟩
  intro kind
  obtain ⟨user, named, authenticated⟩ := signIn kind
  exact ⟨user, named, authenticated.extend event⟩

def KeepsPages (before after : List Page) : Prop :=
  ∀ (index : Nat) (page : Page), before[index]? = some page → ∃ later : Page, after[index]? = some later ∧
    later.browser = page.browser ∧ later.nonce = page.nonce ∧ later.kind = page.kind

structure Grows (state next : State) : Prop where
  pages : KeepsPages state.pages next.pages
  emitted : ∀ (number : Nat) event, state.emitted[number]? = some event → next.emitted[number]? = some event
  issued : KeepsIssued state.db next.db

theorem set_pages {pages : List Page} {index : Nat} {page other : Page} (shown : pages[index]? = some page)
    (browser : other.browser = page.browser) (nonce : other.nonce = page.nonce) (kind : other.kind = page.kind) :
    KeepsPages pages (pages.set index other) := by
  intro place old found
  by_cases same : place = index
  · subst same
    cases shown.symm.trans found
    obtain ⟨inside, -⟩ := List.getElem?_eq_some_iff.mp shown
    exact ⟨other, List.getElem?_set_self inside, browser, nonce, kind⟩
  · exact ⟨old, (List.getElem?_set_ne (Ne.symm same)).trans found, rfl, rfl, rfl⟩

theorem addChallenge_issued {before after : Db} {challenge : LnurlAuthChallenge}
    (added : Accounts.addChallenge before challenge = some after) :
    KeepsIssued before after ∧ Issued after challenge.k1 challenge.action ∧ ∀ action, ¬ Issued before challenge.k1 action := by
  obtain ⟨challenges, stored, rfl⟩ := Option.map_eq_some_iff.mp added
  have rows := Table.store_some.mp stored
  have keyed : Keyed LnurlAuthChallenge.k1 (before.challenges.rows ++ [challenge]) := rows ▸ challenges.valid
  refine ⟨?_, ?_, ?_⟩
  · intro k1 action ⟨row, member, holds⟩
    exact ⟨row, rows ▸ List.mem_append_left _ member, holds⟩
  · exact ⟨challenge, rows ▸ List.mem_append_right _ (List.mem_singleton.mpr rfl), rfl, rfl⟩
  · intro action ⟨row, member, same, _⟩
    exact (Keyed.append_singleton.mp keyed).2 row member same

theorem Moved.grows (moved : Moved env curve host state event next) : Grows state next := by
  have same : KeepsPages state.pages state.pages := fun _ page found => ⟨page, found, rfl, rfl, rfl⟩
  cases moved with
  | refuses | redirects | ignores => exact ⟨same, fun _ _ found => found, .refl _⟩
  | answers member other nonce challenges =>
    refine ⟨same, fun _ _ found => found, ?_⟩
    intro k1 action ⟨row, member, holds⟩
    exact ⟨row, challenges ▸ member, holds⟩
  | opens =>
    refine ⟨?_, fun _ _ found => found, .refl _⟩
    intro index page found
    obtain ⟨inside, -⟩ := List.getElem?_eq_some_iff.mp found
    exact ⟨page, (List.getElem?_append_left inside).trans found, rfl, rfl, rfl⟩
  | refreshes shown added => exact ⟨set_pages shown rfl rfl rfl, fun _ _ found => found, (addChallenge_issued added).1⟩
  | ends => exact ⟨same, fun _ _ found => found, callback_keepsIssued⟩
  | emits =>
    refine ⟨same, ?_, callback_keepsIssued⟩
    intro number announced found
    obtain ⟨inside, -⟩ := List.getElem?_eq_some_iff.mp found
    exact (List.getElem?_append_left inside).trans found
  | takes due shown => exact ⟨set_pages shown rfl rfl rfl, fun _ _ found => found, .refl _⟩

/-- What a redirect that does not raise takes from the storage. -/
theorem redirect_cases {storage after : String → Option UserId} {cookie session : Session} {redirectTo : Option String}
    {target : String} (redirected : lnurlRedirect host storage cookie redirectTo = .ok (after, session, target)) :
    (cookie.loginNonce = none ∧ after = storage ∧ session = cookie) ∨
      ∃ expected, cookie.loginNonce = some expected ∧ after = Function.update storage expected none ∧
        session = { cookie with userId := (if truthy (some expected) then storage expected else none).or cookie.userId } := by
  unfold lnurlRedirect at redirected
  cases safe : safeRedirect host redirectTo with
  | error raised => rw [safe] at redirected; cases redirected
  | ok destination =>
    simp only [safe, Bind.bind, Except.bind] at redirected
    cases current : cookie.loginNonce with
    | none =>
      rw [current] at redirected
      cases redirected
      exact .inl ⟨rfl, rfl, rfl⟩
    | some expected =>
      rw [current] at redirected
      cases redirected
      exact .inr ⟨expected, rfl, rfl, rfl⟩

theorem redirect_ok {storage after : String → Option UserId} {cookie session : Session} {redirectTo : Option String}
    {target : String} (redirected : lnurlRedirect host storage cookie redirectTo = .ok (after, session, target)) :
    session.loginNonce = cookie.loginNonce ∧
      ∀ nonce, after nonce = if cookie.loginNonce = some nonce then none else storage nonce := by
  rcases redirect_cases redirected with ⟨current, rfl, rfl⟩ | ⟨expected, current, rfl, rfl⟩
  · refine ⟨rfl, ?_⟩
    intro nonce
    rw [current, if_neg (Option.some_ne_none _ ∘ Eq.symm)]
  · refine ⟨by rw [current], ?_⟩
    intro nonce
    rw [current, Function.update_apply]
    simp only [Option.some.injEq, eq_comm]

theorem keyed_set {pages : List Page} {index : Nat} {page other : Page} (shown : pages[index]? = some page)
    (nonce : other.nonce = page.nonce) (nonces : Keyed Page.nonce pages) : Keyed Page.nonce (pages.set index other) := by
  obtain ⟨inside, same⟩ := List.getElem?_eq_some_iff.mp shown
  have bound : index < (pages.map Page.nonce).length := by simpa using inside
  have kept : other.nonce = (pages.map Page.nonce)[index] := by simp [nonce, ← same]
  rw [Keyed, List.map_set, kept, List.set_getElem_self]
  exact nonces

theorem Moved.nonces (moved : Moved env curve host state event next) (fresh : Fresh state event)
    (nonces : Keyed Page.nonce state.pages) : Keyed Page.nonce next.pages := by
  cases moved with
  | refuses | answers | redirects | ends | emits | ignores => exact nonces
  | opens => exact Keyed.append_singleton.mpr ⟨nonces, fresh⟩
  | refreshes shown => exact keyed_set shown rfl nonces
  | takes due shown => exact keyed_set shown rfl nonces

theorem getElem?_snoc {α : Type} {items : List α} {item found : α} {index : Nat}
    (shown : (items ++ [item])[index]? = some found) : items[index]? = some found ∨ index = items.length ∧ found = item := by
  by_cases inside : index < items.length
  · rw [List.getElem?_append_left inside] at shown
    exact .inl shown
  · obtain ⟨bound, same⟩ := List.getElem?_eq_some_iff.mp shown
    rw [List.length_append, List.length_singleton] at bound
    obtain rfl : index = items.length := by omega
    rw [List.getElem_concat_length rfl] at same
    exact .inr ⟨rfl, same.symm⟩

theorem getElem?_replaced {α : Type} {items : List α} {item found : α} {index place : Nat}
    (shown : (items.set index item)[place]? = some found) : items[place]? = some found ∨ place = index ∧ found = item := by
  by_cases same : index = place
  · subst same
    obtain ⟨bound, equal⟩ := List.getElem?_eq_some_iff.mp shown
    rw [List.getElem_set_self] at equal
    exact .inr ⟨rfl, equal.symm⟩
  · rw [List.getElem?_set_ne same] at shown
    exact .inl shown

theorem mem_give {browser other : Nat} {session cookie : Session}
    (member : cookie ∈ (state.give browser session).cookies other) :
    other = browser ∧ cookie = session ∨ cookie ∈ state.cookies other := by
  by_cases same : other = browser
  · subst same
    simp only [State.give, Function.update_self, List.mem_cons] at member
    exact member.imp_left fun equal => ⟨rfl, equal⟩
  · simp only [State.give, Function.update_of_ne same] at member
    exact .inr member

/-- A browser gets its nonces from the pages it renders. -/
theorem Moved.given (moved : Moved env curve host state event next) {browser : Nat} {cookie : Session} {nonce : String}
    (member : cookie ∈ next.cookies browser) (has : cookie.loginNonce = some nonce) :
    (∃ old ∈ state.cookies browser, old.loginNonce = some nonce) ∨
      ∃ page ∈ next.pages, page.browser = browser ∧ page.nonce = nonce := by
  cases moved with
  | refuses | refreshes | ends | emits | ignores | takes => exact .inl ⟨cookie, member, has⟩
  | @answers sender brought _ session _ sent other kept =>
    rcases mem_give member with ⟨rfl, rfl⟩ | old
    · rcases kept with none' | same
      · cases none'.symm.trans has
      · exact .inl ⟨brought, sent, same.symm.trans has⟩
    · exact .inl ⟨cookie, old, has⟩
  | opens =>
    rcases mem_give member with ⟨rfl, rfl⟩ | old
    · cases has
      exact .inr ⟨_, List.mem_append_right _ (List.mem_singleton.mpr rfl), rfl, rfl⟩
    · exact .inl ⟨cookie, old, has⟩
  | @redirects sender brought _ _ _ _ sent redirected =>
    rcases mem_give member with ⟨rfl, rfl⟩ | old
    · exact .inl ⟨brought, sent, (redirect_ok redirected).1.symm.trans has⟩
    · exact .inl ⟨cookie, old, has⟩

theorem Moved.shows (moved : Moved env curve host state event next) {index : Nat} {page : Page} {k1 : String}
    (shown : next.pages[index]? = some page) (holds : page.k1 = some k1) :
    (∃ old, state.pages[index]? = some old ∧ old.k1 = some k1) ∨ ∃ now, event = .refresh index k1 now := by
  cases moved with
  | refuses | answers | redirects | ends | emits | ignores => exact .inl ⟨page, shown, holds⟩
  | opens =>
    rcases getElem?_snoc shown with old | ⟨-, rfl⟩
    · exact .inl ⟨page, old, holds⟩
    · cases holds
  | @refreshes place drawn now old db found added =>
    rcases getElem?_replaced shown with kept | ⟨rfl, rfl⟩
    · exact .inl ⟨page, kept, holds⟩
    · cases holds
      exact .inr ⟨now, rfl⟩
  | @takes place number old announced location due found =>
    rcases getElem?_replaced shown with kept | ⟨rfl, rfl⟩
    · exact .inl ⟨page, kept, holds⟩
    · exact .inl ⟨old, found, holds⟩

/-- A refreshed page shows a k1 that no page has shown. -/
theorem Moved.draws (moved : Moved env curve host state event next) {index : Nat} {k1 : String} {now : Instant}
    (refreshes : event = .refresh index k1 now) :
    (∃ page, next.pages[index]? = some page ∧ Issued next.db k1 page.kind.action.value) ∧
      ∀ action, ¬ Issued state.db k1 action := by
  cases moved with
  | refuses | answers | opens | redirects | ends | emits | ignores | takes => cases refreshes
  | @refreshes _ _ _ page _ shown added =>
    cases refreshes
    obtain ⟨-, issued, fresh⟩ := addChallenge_issued added
    obtain ⟨inside, -⟩ := List.getElem?_eq_some_iff.mp shown
    exact ⟨⟨_, List.getElem?_set_self inside, issued⟩, fresh⟩

theorem Moved.pending (moved : Moved env curve host state event next)
    (due : state.pending.Nodup ∧ ∀ index number, (index, number) ∈ state.pending → number < state.emitted.length) :
    next.pending.Nodup ∧ ∀ index number, (index, number) ∈ next.pending → number < next.emitted.length := by
  cases moved with
  | refuses | answers | opens | redirects | refreshes | ends => exact due
  | ignores | takes =>
    exact ⟨due.1.erase _, fun index number still => due.2 index number (List.mem_of_mem_erase still)⟩
  | emits =>
    have new : ∀ {index number : Nat},
        (index, number) ∈ (List.range state.pages.length).map (fun page => (page, state.emitted.length)) →
          number = state.emitted.length := by
      intro index number member
      obtain ⟨_, -, same⟩ := List.mem_map.mp member
      exact (congrArg Prod.snd same).symm
    refine ⟨?_, ?_⟩
    · refine due.1.append (List.nodup_range.map fun _ _ same => congrArg Prod.fst same) ?_
      intro ⟨index, number⟩ old added
      have bound := due.2 index number old
      rw [new added] at bound
      exact absurd bound (Nat.lt_irrefl _)
    · intro index number still
      have length : (state.emitted ++ [‹LnurlAuthEvent›]).length = state.emitted.length + 1 := by simp
      change number < (state.emitted ++ _).length
      rw [length]
      rcases List.mem_append.mp still with old | added
      · exact Nat.lt_succ_of_lt (due.2 index number old)
      · rw [new added]
        exact Nat.lt_succ_self _

/-- What has been shown was issued, and no other page has shown it. -/
theorem Moved.displays (moved : Moved env curve host state event next) (sound : Sound env curve host db past state) :
    (∀ index k1, Displayed (past ++ [event]) index k1 →
        ∃ page, next.pages[index]? = some page ∧ Issued next.db k1 page.kind.action.value) ∧
      ∀ first second k1, Displayed (past ++ [event]) first k1 → Displayed (past ++ [event]) second k1 → first = second := by
  have apart : ∀ {index other k1 now}, Displayed past index k1 → event ≠ .refresh other k1 now := by
    intro index other k1 now shown refreshes
    obtain ⟨page, -, issued⟩ := sound.issued index k1 shown
    exact (moved.draws refreshes).2 _ issued
  refine ⟨?_, ?_⟩
  · intro index k1 shown
    rcases displayed_snoc.mp shown with old | ⟨now, refreshes⟩
    · obtain ⟨page, found, issued⟩ := sound.issued index k1 old
      obtain ⟨later, kept, -, -, kind⟩ := moved.grows.pages index page found
      exact ⟨later, kept, by rw [kind]; exact moved.grows.issued _ _ issued⟩
    · exact (moved.draws refreshes).1
  · intro first second k1 left right
    rcases displayed_snoc.mp left with left | ⟨now, refreshes⟩
    · rcases displayed_snoc.mp right with right | ⟨later, again⟩
      · exact sound.once first second k1 left right
      · exact absurd again (apart left)
    · rcases displayed_snoc.mp right with right | ⟨later, again⟩
      · exact absurd refreshes (apart right)
      · cases refreshes.symm.trans again
        rfl

/-- An event that is emitted tells what its callback has done. -/
theorem Moved.emitted (moved : Moved env curve host state event next) (sound : Sound env curve host db past state)
    (partway : run (SignIn.step env curve host) (SignIn.initial db) past = some state) {number : Nat}
    {announced : LnurlAuthEvent}
    (found : next.emitted[number]? = some announced) :
    Emitted env curve host db (past ++ [event]) next number announced := by
  have old : state.emitted[number]? = some announced → Emitted env curve host db (past ++ [event]) next number announced :=
    fun found => (sound.emitted number announced found).extend event moved.grows.issued
  cases moved with
  | refuses | answers | opens | redirects | refreshes | ends | ignores | takes => exact old found
  | @emits query now uuid fresh announces =>
    rcases getElem?_snoc found with earlier | ⟨rfl, rfl⟩
    · exact old earlier
    obtain ⟨⟨challenge, verified, same⟩, account⟩ := announces
    obtain ⟨row, admits, rfl⟩ := verified_admits verified
    have acts := admits.action
    cases action : query.action with
    | none => rw [action] at acts; cases acts
    | some kind =>
      rw [action] at acts account
      refine ⟨kind, callback_keepsIssued _ _ ⟨row, admits.stored, same.symm, Option.some.inj acts⟩, ?_⟩
      intro signIn
      obtain ⟨user, stored, holds, named⟩ := account (signIn.imp (congrArg some) (congrArg some))
      exact ⟨user.id, named, past, query, now, uuid, [], state, rfl, partway, rfl, admits.k1.symm.trans same.symm,
        admits.signature, user, stored, holds, rfl⟩

theorem source_snoc (partway : run (SignIn.step env curve host) (SignIn.initial db) past = some state)
    (taken : SignIn.step env curve host state event = some next) (nonce : String) :
    source env curve host db nonce (past ++ [event]) =
      (enters host nonce state event).getD (source env curve host db nonce past) :=
  lastWritten_snoc partway taken

theorem enters_request {browser : Nat} {cookie : Session} {request : SignIn.Request} {nonce : String}
    (other : ∀ redirectTo, request = .lnurlRedirect redirectTo →
      (lnurlRedirect host state.storage cookie redirectTo).isOk = false) :
    enters host nonce state (.request browser cookie request) = none := by
  cases request with
  | lnurlRedirect redirectTo => simp [enters, other redirectTo rfl]
  | page | loginPost | registerPost | logout => rfl

/-- The storage changes as `enters` says. -/
theorem Moved.storage (moved : Moved env curve host state event next) (nonce : String) :
    (enters host nonce state event = none ∧ next.storage nonce = state.storage nonce) ∨
      (enters host nonce state event = some none ∧ next.storage nonce = none) ∨
      ∃ index page number announced, event = .handle index number ∧ (index, number) ∈ state.pending ∧
        state.pages[index]? = some page ∧ page.nonce = nonce ∧ state.emitted[number]? = some announced ∧
          page.k1 = some announced.k1 ∧
        enters host nonce state event = some (some number) ∧ next.storage nonce = announced.userId := by
  cases moved with
  | refuses member raised => exact .inl ⟨enters_request raised, rfl⟩
  | answers member other => exact .inl ⟨enters_request fun redirectTo same => absurd same (other redirectTo), rfl⟩
  | opens | refreshes | ends | emits => exact .inl ⟨rfl, rfl⟩
  | @redirects browser cookie redirectTo storage session target member redirected =>
    have result := (redirect_ok redirected).2 nonce
    have answered : (lnurlRedirect host state.storage cookie redirectTo).isOk = true := by rw [redirected]; rfl
    by_cases current : cookie.loginNonce = some nonce
    · rw [if_pos current] at result
      exact .inr (.inl ⟨by simp [enters, current, answered], result⟩)
    · rw [if_neg current] at result
      exact .inl ⟨by simp [enters, current], result⟩
  | @ignores index number page announced due shown emitted other =>
    refine .inl ⟨?_, rfl⟩
    simp [enters, shown, emitted, other]
  | @takes index number page announced location due shown emitted completes =>
    by_cases same : page.nonce = nonce
    · subst same
      refine .inr (.inr ⟨index, page, number, announced, rfl, due, shown, rfl, emitted, completes.symm, ?_, ?_⟩)
      · simp [enters, shown, emitted, completes]
      · exact Function.update_self ..
    · refine .inl ⟨?_, Function.update_of_ne (Ne.symm same) ..⟩
      simp [enters, shown, emitted, same]

/-- A handler that has run is not due again. -/
theorem Moved.due (moved : Moved env curve host state event next)
    (due : state.pending.Nodup ∧ ∀ index number, (index, number) ∈ state.pending → number < state.emitted.length)
    {index number : Nat} (past : number < state.emitted.length) (still : (index, number) ∈ next.pending) :
    (index, number) ∈ state.pending ∧ event ≠ .handle index number := by
  cases moved with
  | refuses | answers | opens | redirects | refreshes | ends => exact ⟨still, by simp⟩
  | emits =>
    rcases List.mem_append.mp still with old | added
    · exact ⟨old, by simp⟩
    · obtain ⟨_, -, same⟩ := List.mem_map.mp added
      cases same
      exact absurd past (Nat.lt_irrefl _)
  | ignores | takes =>
    have kept := (due.1.mem_erase_iff).mp still
    refine ⟨kept.2, ?_⟩
    intro same
    cases same
    exact kept.1 rfl

theorem step_sound (sound : Sound env curve host db past state) (fresh : Fresh state event)
    (partway : run (SignIn.step env curve host) (SignIn.initial db) past = some state)
    (taken : SignIn.step env curve host state event = some next) : Sound env curve host db (past ++ [event]) next := by
  have moved := step_moved taken
  have grows := moved.grows
  obtain ⟨issued, once⟩ := moved.displays sound
  refine
    { nonces := moved.nonces fresh sound.nonces
      cookies := ?_
      shows := ?_
      issued := issued
      once := once
      emitted := fun number announced found => moved.emitted sound partway found
      pending := moved.pending sound.pending
      entries := ?_
      sources := ?_ }
  · intro browser cookie nonce member has
    rcases moved.given member has with ⟨old, brought, same⟩ | given
    · obtain ⟨page, rendered, owned, holds⟩ := sound.cookies browser old nonce brought same
      obtain ⟨index, bound, shown⟩ := List.getElem_of_mem rendered
      obtain ⟨later, kept, sameBrowser, sameNonce, -⟩ :=
        grows.pages index page (List.getElem?_eq_some_iff.mpr ⟨bound, shown⟩)
      exact ⟨later, List.mem_of_getElem? kept, sameBrowser.trans owned, sameNonce.trans holds⟩
    · exact given
  · intro index page k1 shown holds
    apply displayed_snoc.mpr
    exact (moved.shows shown holds).imp_left fun ⟨old, found, held⟩ => sound.shows index old k1 found held
  · intro nonce user entry
    rw [source_snoc partway taken]
    rcases moved.storage nonce with ⟨quiet, kept⟩ | ⟨-, removed⟩ | ⟨_, _, number, announced, _, _, _, _, emitted,
      _, entered, value⟩
    · rw [kept] at entry
      obtain ⟨number, announced, from', found, named⟩ := sound.entries nonce user entry
      exact ⟨number, announced, by rw [quiet]; exact from', grows.emitted number announced found, named⟩
    · rw [removed] at entry
      cases entry
    · rw [value] at entry
      exact ⟨number, announced, by rw [entered]; rfl, grows.emitted number announced emitted, entry⟩
  · intro nonce number from'
    rw [source_snoc partway taken] at from'
    rcases moved.storage nonce with ⟨quiet, -⟩ | ⟨removed, -⟩ | ⟨index, page, taking, announced, rfl, -, shown,
      holds, emitted, completes, entered, -⟩
    · rw [quiet] at from'
      obtain ⟨index, page, announced, shown, holds, emitted, displayed, spent⟩ := sound.sources nonce number from'
      obtain ⟨later, kept, -, same, -⟩ := grows.pages index page shown
      obtain ⟨inside, -⟩ := List.getElem?_eq_some_iff.mp emitted
      exact ⟨index, later, announced, kept, same.trans holds, grows.emitted number announced emitted,
        displayed_snoc.mpr (.inl displayed), fun still => spent (moved.due sound.pending inside still).1⟩
    · rw [removed] at from'
      cases from'
    · rw [entered] at from'
      cases from'
      obtain ⟨later, kept, -, same, -⟩ := grows.pages index page shown
      obtain ⟨inside, -⟩ := List.getElem?_eq_some_iff.mp emitted
      exact ⟨index, later, announced, kept, same.trans holds, grows.emitted _ announced emitted,
        displayed_snoc.mpr (.inl (sound.shows index page _ shown completes)),
        fun still => (moved.due sound.pending inside still).2 rfl⟩

end sound

end Satoidc.Proofs.SignInSessions
