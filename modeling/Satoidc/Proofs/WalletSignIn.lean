import Satoidc.QrCodes
import Satoidc.Proofs.CallbackAnswers
import Satoidc.Proofs.SignInSessions

/-! Signing in with a wallet works. Whatever has happened so far, a page whose k1 is
alive can be completed by a wallet that scans its QR code. -/

namespace Satoidc.Proofs.WalletSignIn
open Foundation SignIn LnurlCallback SignInSessions CallbackEffects

theorem hexDigit_plain {c : Char} (digit : (hexDigit c).isSome = true) : isFormPlain c = true := by
  simp only [isFormPlain, isAsciiAlpha, isAsciiDigit, Bool.or_eq_true, Bool.and_eq_true, decide_eq_true_eq]
  unfold hexDigit at digit
  split at digit
  next number => exact .inl (.inl (.inl (.inl (.inr number))))
  next =>
    split at digit
    next lower => exact .inl (.inl (.inl (.inl (.inl (.inl ⟨lower.1, Char.le_trans lower.2 (by decide)⟩)))))
    next =>
      split at digit
      next upper => exact .inl (.inl (.inl (.inl (.inl (.inr ⟨upper.1, Char.le_trans upper.2 (by decide)⟩)))))
      next => cases digit

theorem formEncode_hex {text : String} (hex : isHex text = true) : formEncode text.toList = text.toList := by
  apply formEncode_plain
  intro c member
  exact hexDigit_plain (List.all_eq_true.mp hex c member)

/-- The parameters of the request that a wallet makes. -/
def parameters (k1 : String) (action : LnurlAction) (answer : WalletAnswer) : List (List Char × List Char) :=
  [("tag".toList, "login".toList), ("k1".toList, k1.toList), ("action".toList, action.value.toList),
    ("sig".toList, answer.sig.toList), ("key".toList, answer.key.toList)]

theorem url_toList {baseUrl k1 : String} (action : LnurlAction) (answer : WalletAnswer) (hex : isHex k1 = true) :
    (answer.url (callbackUrl baseUrl (some k1) action)).toList =
      baseUrl.toList ++ "auth/lnurl/callback".toList ++ '?' :: formData (parameters k1 action answer) := by
  have named : formEncode action.value.toList = action.value.toList := by cases action <;> rfl
  have encoded : formData (parameters k1 action answer) = "tag=login&k1=".toList ++ k1.toList ++ "&action=".toList ++
      action.value.toList ++ "&sig=".toList ++ answer.sig.toList ++ "&key=".toList ++ answer.key.toList := by
    simp only [formData, parameters, List.map_cons, List.map_nil, formField, formEncode_hex hex, formEncode_hex answer.sigHex,
      formEncode_hex answer.keyHex, named, List.intercalate_cons_cons, List.intercalate_singleton, List.append_assoc,
      List.cons_append, List.nil_append]
    rfl
  rw [encoded]
  simp only [WalletAnswer.url, callbackUrl, Option.getD_some, String.toList_append, List.append_assoc]
  rfl

/-- The query that the callback gets. -/
def scanned (k1 : String) (action : LnurlAction) (answer : WalletAnswer) (k1Length : k1.length = 64) : LnurlAuthCallbackIn where
  k1
  sig := answer.sig
  key := answer.key
  action := some action
  k1Length
  sigLength := answer.sigLength
  keyLength := answer.keyLength

theorem read_value (action : LnurlAction) : LnurlAction.read action.value = some action := by
  cases action <;> rfl

/-- The callback reads the k1 and the action that the page shows, and what the wallet added. -/
theorem read_callbackUrl {baseUrl k1 : String} (plain : IsPlainUrl baseUrl.toList) (path : '?' ∉ baseUrl.toList)
    (action : LnurlAction) (answer : WalletAnswer) (hex : isHex k1 = true) (size : k1.length = 64) :
    LnurlAuthCallbackIn.read (requestQuery (answer.url (callbackUrl baseUrl (some k1) action))) =
      some (scanned k1 action answer size) := by
  have plainPath : IsPlainUrl (baseUrl.toList ++ "auth/lnurl/callback".toList) := by
    intro c member
    rcases List.mem_append.mp member with base | route
    · exact plain c base
    · exact (by decide : IsPlainUrl "auth/lnurl/callback".toList) c route
  have mark : '?' ∉ baseUrl.toList ++ "auth/lnurl/callback".toList := by
    rw [List.mem_append, not_or]
    exact ⟨path, by decide⟩
  have parsed : parseQsl (formData (parameters k1 action answer)) = parameters k1 action answer := parseQsl_formData _
  have found : ∀ name : String, queryParameter name (String.ofList (formData (parameters k1 action answer))) =
      (((parameters k1 action answer).filter fun field => field.1 = name.toList).getLast?).map fun field =>
        String.ofList field.2 := by
    intro name
    rw [queryParameter, String.toList_ofList, parsed]
  have first : queryParameter "k1" (String.ofList (formData (parameters k1 action answer))) =
    some (String.ofList k1.toList) := found _
  have second : queryParameter "sig" (String.ofList (formData (parameters k1 action answer))) =
    some (String.ofList answer.sig.toList) :=
    found _
  have third : queryParameter "key" (String.ofList (formData (parameters k1 action answer))) =
    some (String.ofList answer.key.toList) :=
    found _
  have last : queryParameter "action" (String.ofList (formData (parameters k1 action answer))) =
      some (String.ofList action.value.toList) := found _
  rw [String.ofList_toList] at first second third last
  rw [requestQuery_formData (url_toList action answer hex) plainPath mark]
  simp only [LnurlAuthCallbackIn.read, first, second, third, last, Option.bind_eq_bind, Option.bind_some, read_value]
  rw [dif_pos ⟨size, answer.sigLength, answer.keyLength⟩]
  rfl

/-- The wallet completes a k1 of a page: it signs it while it is alive, and holds the
account that a login needs. -/
structure Completes (env : Settings) (curve : Secp256k1) (db : Db) (now : Instant) (kind : PageKind)
    (query : LnurlAuthCallbackIn) :
    Prop where
  action : query.action = some kind.action
  alive : ∃ row ∈ db.challenges.rows, live env now query.k1 row = true
  signature : verify curve query.k1 query.key query.sig = .ok true
  account : kind = .register ∨ db.userByPubkey query.key ≠ none

section callback
variable {env : Settings} {curve : Secp256k1} {db : Db} {now : Instant} {uuid : UserId} {kind : PageKind}
    {query : LnurlAuthCallbackIn}

theorem commit_some (users : Users) (challenge : LnurlAuthChallenge) :
    commit db (some users) challenge =
      (db.writeChallenge users challenge, .finished (some challenge) (.emitted .ok challenge)) := rfl

/-- The last statement of a registration or a login finds or makes the wallet's account. -/
theorem resolved_commits {challenge : LnurlAuthChallenge} (action : query.action = some kind.action)
    (account : kind = .register ∨ db.userByPubkey query.key ≠ none) (new : ∀ user ∈ db.users.rows, user.id ≠ uuid) :
    ∃ users user, LnurlCallback.next curve uuid db (.resolved query challenge (db.userByPubkey query.key)) =
        commit db (some users) { challenge with userId := some user } ∧
      ∃ row ∈ users.rows, row.id = user ∧ row.lnurlPubkey = some query.key := by
  cases holder : db.userByPubkey query.key with
  | some user =>
    have known : user ∈ db.users.rows ∧ user.lnurlPubkey = some query.key :=
      ⟨List.mem_of_find?_eq_some holder, by simpa using List.find?_some holder⟩
    refine ⟨db.users, user.id, ?_, user, known.1, rfl, known.2⟩
    cases kind with
    | login => simp only [LnurlCallback.next, action, PageKind.action]
    | register => simp only [LnurlCallback.next, action, PageKind.action]
  | none =>
    rcases account with rfl | registered
    · obtain ⟨users, stored⟩ := Option.ne_none_iff_exists'.mp (CallbackAnswers.register_stored new holder)
      have rows := Table.store_some.mp stored
      refine ⟨users, uuid, ?_, walletUser uuid query.key, ?_, rfl, rfl⟩
      · simp only [LnurlCallback.next, action, PageKind.action, stored]
      · rw [rows]
        exact List.mem_append_right _ (List.mem_singleton_self _)
    · exact absurd holder registered

theorem completed_callback (completes : Completes env curve db now kind query) (issued : Issued db query.k1 kind.action.value)
    (new : ∀ user ∈ db.users.rows, user.id ≠ uuid) :
    ∃ after challenge user, lnurlAuthCallback env curve now uuid db query =
        (after, .finished (some challenge) (.emitted .ok challenge)) ∧ challenge.k1 = query.k1 ∧ challenge.userId = some user ∧
      ∃ row ∈ after.users.rows, row.id = user ∧ row.lnurlPubkey = some query.key := by
  obtain ⟨row, stored, alive⟩ := completes.alive
  obtain ⟨found, search⟩ := Option.ne_none_iff_exists'.mp
    (fun none : db.challenges.rows.find? (live env now query.k1) = none => List.find?_eq_none.mp none row stored alive)
  have own : found.k1 = query.k1 := by
    have holds := List.find?_some search
    simp only [live, Bool.and_eq_true, decide_eq_true_eq] at holds
    exact holds.1.1
  have acts : found.action = kind.action.value := by
    apply Issued.unique _ issued
    exact ⟨found, List.mem_of_find?_eq_some search, own, rfl⟩
  have started : consume env now db query = .consumed query { found with consumed := true } := by
    rw [consume, search]
  have passed : LnurlCallback.next curve uuid db (.consumed query { found with consumed := true }) =
      (db, .resolved query { found with consumed := true } (db.userByPubkey query.key)) := by
    have same : some found.action = query.action.map LnurlAction.value := by rw [completes.action, acts]; rfl
    rw [LnurlCallback.next, if_neg (not_not.mpr same), completes.signature]
  obtain ⟨users, user, committed, registered⟩ := @resolved_commits curve db uuid kind query { found with consumed := true }
    completes.action completes.account new
  let completed : LnurlAuthChallenge := { found with consumed := true, userId := some user }
  refine ⟨db.writeChallenge users completed, completed, user, ?_, own, rfl, registered⟩
  unfold lnurlAuthCallback
  rw [started, passed]
  simp only [committed, commit_some]
  rfl

end callback

section runs
variable {env : Settings} {curve : Secp256k1} {host : Host} {db : Db} {events : List SignIn.Event} {state next : State}

/-- The browser of every page has a session with the nonce of the page. -/
def Entrusted (state : State) : Prop :=
  ∀ page ∈ state.pages, ∃ cookie ∈ state.cookies page.browser, cookie.loginNonce = some page.nonce

theorem give_cookies (state : State) (browser : Nat) (session : Session) {other : Nat} {cookie : Session}
    (member : cookie ∈ state.cookies other) : cookie ∈ (state.give browser session).cookies other := by
  change cookie ∈ Function.update state.cookies browser (session :: state.cookies browser) other
  rw [Function.update_apply]
  split
  next same => exact List.mem_cons_of_mem _ (same ▸ member)
  next => exact member

theorem step_entrusted {event : SignIn.Event} (entrusted : Entrusted state)
    (taken : SignIn.step env curve host state event = some next) : Entrusted next := by
  have given : ∀ (browser : Nat) (session : Session), ∀ page ∈ state.pages,
      ∃ cookie ∈ (state.give browser session).cookies page.browser, cookie.loginNonce = some page.nonce := by
    intro browser session page member
    obtain ⟨cookie, brought, nonce⟩ := entrusted page member
    exact ⟨cookie, give_cookies state browser session brought, nonce⟩
  have replaced : ∀ {index : Nat} {page other : Page}, state.pages[index]? = some page → other.browser = page.browser →
      other.nonce = page.nonce → ∀ page ∈ state.pages.set index other,
        ∃ cookie ∈ state.cookies page.browser, cookie.loginNonce = some page.nonce := by
    intro index page other shown browser nonce found member
    rcases List.mem_or_eq_of_mem_set member with old | rfl
    · exact entrusted found old
    · rw [browser, nonce]
      exact entrusted page (List.mem_of_getElem? shown)
  have moved : Moved env curve host state event next := step_moved taken
  cases moved with
  | refuses _ _ => exact entrusted
  | answers _ _ _ _ => exact given _ _
  | @opens browser cookie kind redirectTo nonce target member =>
    intro page member
    rcases List.mem_append.mp member with old | new
    · exact given _ _ page old
    · cases List.mem_singleton.mp new
      refine ⟨{ cookie with loginNonce := some nonce }, ?_, rfl⟩
      simp only [State.give, Function.update_self]
      exact List.mem_cons_self
  | redirects _ _ => exact given _ _
  | refreshes shown _ => exact replaced shown rfl rfl
  | ends => exact entrusted
  | emits _ => exact entrusted
  | ignores _ _ _ _ => exact entrusted
  | takes _ shown _ _ => exact replaced shown rfl rfl

theorem entrusted_run (executed : run (SignIn.step env curve host) (SignIn.initial db) events = some state) :
    Entrusted state := by
  refine run_invariant Entrusted (fun _ _ _ held taken => step_entrusted held taken) ?_ executed
  intro page member
  cases member

/-- The redirect signs in the user that is entered under the session's nonce. -/
theorem redirect_signs_in {browser : Nat} {cookie : Session} {redirectTo : Option String} {nonce target : String} {user : UserId}
    (brought : cookie ∈ state.cookies browser) (current : cookie.loginNonce = some nonce) (drawn : nonce ≠ "")
    (entry : state.storage nonce = some user) (redirected : safeRedirect host redirectTo = .ok target) :
    ∃ final, SignIn.step env curve host state (.request browser cookie (.lnurlRedirect redirectTo)) = some final ∧
      { cookie with userId := some user } ∈ final.cookies browser ∧ final.db = state.db := by
  have held : truthy (some nonce) = true := by simpa [truthy] using drawn
  have signedIn : lnurlRedirect host state.storage cookie redirectTo =
      .ok (Function.update state.storage nonce none, { cookie with userId := some user }, target) := by
    simp only [lnurlRedirect, redirected, current, held, entry]
    rfl
  refine ⟨_, if_pos brought, ?_, ?_⟩
  · rw [respond, signedIn]
    simp only [State.give, Function.update_self]
    exact List.mem_cons_self
  · rw [respond, signedIn]
    rfl

/-- The handler of the page that shows the event's k1 enters the event's user under the
page's nonce. -/
theorem handle_enters {number index : Nat} {page : Page} {event : LnurlAuthEvent} (due : (number, index) ∈ state.pending)
    (shown : state.pages[number]? = some page) (emitted : state.emitted[index]? = some event)
    (completed : some event.k1 = page.k1) :
    ∃ handled, SignIn.step env curve host state (.handle number index) = some handled ∧ handled.db = state.db ∧
      handled.cookies = state.cookies ∧ handled.storage page.nonce = event.userId := by
  have taken : SignIn.step env curve host state (.handle number index) =
      some { state with
        storage := Function.update state.storage page.nonce event.userId
        pages := state.pages.set number { page with location := some (page.kind.lnurlRedirectUrl page.redirectTo) }
        pending := state.pending.erase (number, index) } := by
    simp only [SignIn.step, if_pos due, shown, emitted, Option.bind_eq_bind, Option.bind_some, eventHandler, if_pos completed]
  exact ⟨_, taken, rfl, rfl, Function.update_self ..⟩

/-- From every state the service can reach, the callback reads back what the QR code of an
open page shows and what a wallet adds to it; and while the k1 is alive, a wallet that can
sign in gets the page's browser signed in as the user who holds the wallet's key: by its
request, the page's event handler and the redirect. -/
theorem qrcode_signs_in (fresh : Along (SignIn.step env curve host) Fresh (SignIn.initial db) events)
    (executed : run (SignIn.step env curve host) (SignIn.initial db) events = some state) {number : Nat} {page : Page}
    (shown : state.pages[number]? = some page) (drawn : page.nonce ≠ "") {k1 : String} (displays : page.k1 = some k1)
    (hex : isHex k1 = true) (size : k1.length = 64) {baseUrl : String} (plain : IsPlainUrl baseUrl.toList)
    (path : '?' ∉ baseUrl.toList) (answer : WalletAnswer) :
    LnurlAuthCallbackIn.read (requestQuery (answer.url (callbackUrl baseUrl page.k1 page.kind.action))) =
        some (scanned k1 page.kind.action answer size) ∧
      ∀ (now : Instant) (uuid : UserId) (redirectTo : Option String) (target : String),
        Completes env curve state.db now page.kind (scanned k1 page.kind.action answer size) →
        (∀ user ∈ state.db.users.rows, user.id ≠ uuid) → safeRedirect host redirectTo = .ok target →
        ∃ cookie final user,
          run (SignIn.step env curve host) state [.callback (scanned k1 page.kind.action answer size) now uuid,
            .handle number state.emitted.length, .request page.browser cookie (.lnurlRedirect redirectTo)] = some final ∧
          { cookie with userId := some user } ∈ final.cookies page.browser ∧
          ∃ row ∈ final.db.users.rows, row.id = user ∧ row.lnurlPubkey = some answer.key := by
  refine ⟨displays ▸ read_callbackUrl plain path page.kind.action answer hex size, ?_⟩
  intro now uuid redirectTo target completes new redirected
  have sound := sound_run fresh executed
  have issued : Issued state.db k1 page.kind.action.value := by
    obtain ⟨told, again, issued⟩ := sound.issued number k1 (sound.shows number page k1 shown displays)
    cases shown.symm.trans again
    exact issued
  obtain ⟨after, challenge, user, ended, own, named, row, stored, holds⟩ := completed_callback completes issued new
  obtain ⟨cookie, brought, current⟩ := entrusted_run executed page (List.mem_of_getElem? shown)
  let event : LnurlAuthEvent := ⟨challenge.k1, challenge.userId⟩
  let emitted : State := { state with db := after }.emit event
  have called : SignIn.step env curve host state (.callback (scanned k1 page.kind.action answer size) now uuid) =
    some emitted := callback_emits ended
  have due : (number, state.emitted.length) ∈ emitted.pending := by
    apply List.mem_append_right
    exact List.mem_map.mpr ⟨number, List.mem_range.mpr (List.getElem?_eq_some_iff.mp shown).1, rfl⟩
  have announced : emitted.emitted[state.emitted.length]? = some event := List.getElem?_concat_length
  have completed : some event.k1 = page.k1 := (congrArg some own).trans displays.symm
  obtain ⟨handled, taken, database, cookies, entry⟩ :=
    @handle_enters env curve host emitted _ _ page event due shown announced completed
  have brings : cookie ∈ handled.cookies page.browser := cookies ▸ brought
  obtain ⟨final, finished, signedIn, kept⟩ :=
    @redirect_signs_in env curve host _ _ _ _ _ _ _ brings current drawn (entry.trans named) redirected
  refine ⟨cookie, final, user, ?_, signedIn, row, ?_, holds⟩
  · exact run_cons_some.mpr ⟨emitted, called, run_cons_some.mpr ⟨handled, taken, run_cons_some.mpr ⟨final, finished, rfl⟩⟩⟩
  · rw [kept, database]
    exact stored

end runs

def shownK1 : String := "dddddddddddddddddddddddddddddddddddddddddddddddddddddddddddddddd"

/-- A browser has opened the register page, which has drawn a k1. -/
def showing : List SignIn.Event := [.request 3 {} (.page .register none "m"), .refresh 0 shownK1 5000000]

def afterShowing : State := (run (SignIn.step {} (.answering (.ok true)) .ascii) (SignIn.initial noAccounts) showing).getD
  (SignIn.initial noAccounts)

theorem afterShowing_reached :
    run (SignIn.step {} (.answering (.ok true)) .ascii) (SignIn.initial noAccounts) showing = some afterShowing := rfl

def newWallet : WalletAnswer where
  sig := "3006020101020155"
  key := "030000000000000000000000000000000000000000000000000000000000000055"
  sigHex := isHex_ofList (by decide)
  keyHex := isHex_ofList (by decide)
  sigLength := by decide
  keyLength := String.length_ofList

def newWalletQuery : LnurlAuthCallbackIn := scanned shownK1 .register newWallet String.length_ofList

theorem newWallet_signs_in :
    LnurlAuthCallbackIn.read (requestQuery (newWallet.url (callbackUrl "http://localhost:8000/" (some shownK1) .register))) =
        some newWalletQuery ∧
      ∃ cookie final user,
        run (SignIn.step {} (.answering (.ok true)) .ascii) afterShowing [.callback newWalletQuery 6000000 11, .handle 0 0,
          .request 3 cookie (.lnurlRedirect none)] = some final ∧
        { cookie with userId := some user } ∈ final.cookies 3 ∧
        ∃ row ∈ final.db.users.rows, row.id = user ∧ row.lnurlPubkey = some newWallet.key := by
  have shown : afterShowing.pages[0]? =
      some { browser := 3, nonce := "m", kind := .register, redirectTo := "/", k1 := some shownK1 } := rfl
  have fresh : Along (SignIn.step {} (.answering (.ok true)) .ascii) Fresh (SignIn.initial noAccounts) showing := by
    refine .cons rfl ?_ (.cons rfl trivial trivial)
    exact List.forall_mem_nil _
  obtain ⟨reads, signs⟩ := @qrcode_signs_in _ _ _ _ _ _ fresh afterShowing_reached 0 _ shown (by decide) shownK1 rfl
    (isHex_ofList (by decide)) String.length_ofList "http://localhost:8000/" (by decide) (by decide) newWallet
  refine ⟨reads, signs 6000000 11 none _ ?_ ?_ rfl⟩
  · exact ⟨rfl, ⟨_, List.mem_singleton_self _, rfl⟩, verify_answering rfl rfl rfl, .inl rfl⟩
  · exact List.forall_mem_nil _

end Satoidc.Proofs.WalletSignIn
