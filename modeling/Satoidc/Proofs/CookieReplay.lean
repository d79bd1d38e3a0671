import Satoidc.Cookies
import Satoidc.Foundation.OneTimeValues
import Satoidc.Foundation.Runs

/-! How often a login nonce or a consent token can be accepted. Each is drawn into one
session, and a request moves it from the cookie it brings to the cookie of its answer
or takes it out; but nothing keeps a client from bringing a cookie twice. -/

namespace Satoidc.Proofs.CookieReplay
open Foundation Cookies

inductive Kind where
  | nonce | csrf

def Kind.value : Kind → ClientSession → Option String
  | .nonce, session => session.loginNonce
  | .csrf, session => session.csrfToken

def Kind.accepted : Kind → State → List String
  | .nonce, state => state.acceptedNonces
  | .csrf, state => state.acceptedCsrf

def Kind.spends : Kind → Served → Option String
  | .nonce, served => served.acceptedNonce
  | .csrf, served => served.acceptedCsrf

/-- The values that a request draws or finds in its session, it puts into the session
of its answer, or accepts, or drops. -/
def Passes (kind : Kind) (session : ClientSession) (served : Served) : Prop :=
  ((served.session.bind kind.value).toList ++ (kind.spends served).toList).Subperm
    (served.drew.toList ++ (kind.value session).toList)

/-- The four ways of a request with a value: `answered` is in the session of its
answer, `spent` is accepted, `drew` is drawn and `held` is in the session it brings. -/
inductive Moves (drew held : Option String) : Option String → Option String → Prop where
  | dropped : Moves drew held none none
  | accepted : Moves drew held none held
  | kept : Moves drew held held none
  | drawn : Moves drew held drew none

theorem Moves.subperm {drew held answered spent : Option String} (moves : Moves drew held answered spent) :
    (answered.toList ++ spent.toList).Subperm (drew.toList ++ held.toList) := by
  cases moves with
  | dropped => exact List.nil_subperm
  | accepted => exact (List.sublist_append_right _ _).subperm
  | kept =>
    rw [Option.toList_none, List.append_nil]
    exact (List.sublist_append_right _ _).subperm
  | drawn =>
    rw [Option.toList_none, List.append_nil]
    exact (List.sublist_append_left _ _).subperm

variable {host : Host} {db : Db} {storage : String → Option UserId} {session : ClientSession}

theorem openPage_shown {kind : PageKind} {browser : Nat} {nonce : String} {session next : Session} {redirectTo : Option String}
    {page : SignIn.Page} (opened : SignIn.openPage host kind browser nonce session redirectTo = .ok (.shown next page)) :
    next.loginNonce = some nonce := by
  unfold SignIn.openPage at opened
  cases safe : safeRedirect host redirectTo with
  | error raised => rw [safe] at opened; cases opened
  | ok target =>
    rw [safe] at opened
    simp only [Bind.bind, Except.bind] at opened
    split at opened <;> cases opened
    rfl

theorem lnurlRedirect_nonce {session next : Session} {redirectTo : Option String} {after : String → Option UserId}
    {target : String}
    (redirected : lnurlRedirect host storage session redirectTo = .ok (after, next, target)) :
    next.loginNonce = session.loginNonce := by
  unfold lnurlRedirect at redirected
  cases safe : safeRedirect host redirectTo with
  | error raised => rw [safe] at redirected; cases redirected
  | ok url =>
    rw [safe] at redirected
    simp only [Bind.bind, Except.bind] at redirected
    split at redirected <;> cases redirected <;> rfl

theorem compareDigest_true {first second : String} (equal : compareDigest first second = some true) : first = second := by
  unfold compareDigest at equal
  split at equal
  · simpa using equal
  · cases equal

/-- The token that is accepted is the session's, which loses it; otherwise the
session stays as it is. -/
theorem authorize_csrf (form : AuthorizeForm) :
    ((Cookies.authorize db session form).2.accepted = true ∧ session.csrfToken = some form.csrfToken ∧
        (Cookies.authorize db session form).1 = { session with csrfToken := none }) ∨
      ((Cookies.authorize db session form).2.accepted = false ∧ (Cookies.authorize db session form).1 = session) := by
  unfold Cookies.authorize
  split
  next => exact .inr ⟨rfl, rfl⟩
  next =>
    split
    next => exact .inr ⟨rfl, rfl⟩
    next expected held =>
      split
      next => exact .inr ⟨rfl, rfl⟩
      next =>
        split
        next => exact .inr ⟨rfl, rfl⟩
        next => exact .inr ⟨rfl, rfl⟩
        next equal =>
          have same := compareDigest_true equal
          dsimp only
          split <;> exact .inl ⟨rfl, by rw [held, same], rfl⟩

/-- The nonce that a login form spends, if it is accepted, is the session's. -/
theorem loginPost_moves (form : LoginForm) :
    Moves none session.loginNonce none (if loginAccepted session.toSession form then form.loginNonce else none) := by
  by_cases accepted : loginAccepted session.toSession form = true
  · rw [if_pos accepted]
    simp only [loginAccepted, Bool.and_eq_true, decide_eq_true_eq] at accepted
    rw [accepted.2]
    exact .accepted
  · rw [if_neg accepted]
    exact .dropped

theorem serve_passes (kind : Kind) (request : Request) : Passes kind session (serve host db storage session request) := by
  apply Moves.subperm
  cases request with
  | page page redirectTo nonce =>
    simp only [serve]
    split
    next => cases kind <;> exact .dropped
    next => cases kind <;> exact .kept
    next next shown opened =>
      have put : next.loginNonce = some nonce := openPage_shown opened
      cases kind with
      | nonce => simp only [Kind.value, Option.bind_some, put]; exact .drawn
      | csrf => exact .kept
  | loginPost form =>
    have emptied : (loginPost host db session.toSession form).1.loginNonce = none :=
      loginPost_nonce host db session.toSession form
    simp only [serve]
    split
    next =>
      cases kind with
      | nonce => exact loginPost_moves form
      | csrf => exact .dropped
    next =>
      cases kind with
      | nonce => simp only [Kind.value, Option.bind_some, emptied]; exact loginPost_moves form
      | csrf => exact .kept
  | lnurlRedirect redirectTo =>
    simp only [serve]
    split
    next => cases kind <;> exact .dropped
    next after next target redirected =>
      have same : next.loginNonce = session.loginNonce := lnurlRedirect_nonce redirected
      cases kind with
      | nonce => simp only [Kind.value, Option.bind_some, same]; exact .kept
      | csrf => exact .kept
  | registerPost uuid salt form =>
    have kept : (registerPost host uuid salt db session.toSession form).2.1.loginNonce = session.loginNonce :=
      (registerPost_keeps host uuid salt db session.toSession form).1
    simp only [serve]
    split
    next => cases kind <;> exact .dropped
    next after next target registered =>
      rw [registered] at kept
      have same : next.loginNonce = session.loginNonce := kept
      cases kind with
      | nonce => simp only [Kind.value, Option.bind_some, same]; exact .kept
      | csrf => exact .kept
  | logout => cases kind <;> exact .dropped
  | consentPage validated csrf =>
    cases validated with
    | false => cases kind <;> exact .kept
    | true =>
      cases kind with
      | nonce => exact .kept
      | csrf => exact .drawn
  | authorize form granted =>
    simp only [serve]
    rcases authorize_csrf form with ⟨accepted, held, next⟩ | ⟨refused, next⟩
    · have answered : (Cookies.authorize db session form).2 ≠ .typeError := by
        intro raised
        rw [raised] at accepted
        cases accepted
      rw [accepted, next, if_neg answered]
      cases kind with
      | nonce => exact .kept
      | csrf => simp only [Kind.value, Kind.spends, held]; exact .accepted
    · rw [refused, next]
      by_cases raised : (Cookies.authorize db session form).2 = .typeError
      · rw [if_pos raised]
        cases kind <;> exact .dropped
      · rw [if_neg raised]
        cases kind <;> exact .kept
  | other => cases kind <;> exact .kept

/-- The requests that check a value of the kind. -/
def Kind.checks : Kind → Request → Bool
  | .nonce, .loginPost _ | .csrf, .authorize _ _ => true
  | _, _ => false

/-- The value that a request brings to be checked. -/
def posted (kind : Kind) (request : ClientSession × Request) : List String :=
  if kind.checks request.2 then (kind.value request.1).toList else []

/-- Only a value that is brought to be checked is accepted. -/
theorem serve_spends (kind : Kind) (request : Request) :
    (kind.spends (serve host db storage session request)).toList.Sublist (posted kind (session, request)) := by
  cases request with
  | page | lnurlRedirect | registerPost | consentPage =>
    simp only [serve]
    split <;> cases kind <;> exact List.nil_sublist _
  | logout | other => cases kind <;> exact List.nil_sublist _
  | loginPost form =>
    have spent : (if loginAccepted session.toSession form then form.loginNonce else none).toList.Sublist
        session.loginNonce.toList := by
      split
      next accepted =>
        simp only [loginAccepted, Bool.and_eq_true, decide_eq_true_eq] at accepted
        rw [accepted.2]
      next => exact List.nil_sublist _
    simp only [serve]
    split
    all_goals
      cases kind with
      | nonce => exact spent
      | csrf => exact List.nil_sublist _
  | authorize form granted =>
    cases kind with
    | nonce => exact List.nil_sublist _
    | csrf =>
      simp only [serve, Kind.spends]
      rcases authorize_csrf form with ⟨accepted, held, -⟩ | ⟨refused, -⟩
      · rw [if_pos accepted]
        have brought : posted .csrf (session, .authorize form granted) = [form.csrfToken] := congrArg Option.toList held
        exact brought ▸ List.Sublist.refl _
      · rw [refused]
        exact List.nil_sublist _

/-- The value that a cookie can still bring, once it has not been presented. -/
def carries (kind : Kind) (cookie : Cookie) : List String :=
  if cookie.presented then [] else (kind.value cookie.session).toList

/-- The value in the copy that a request works on. -/
def copied (kind : Kind) (request : ClientSession × Request) : List String := (kind.value request.1).toList

/-- The values of a kind in cookies yet to be presented, in requests being served, and
accepted so far. -/
def held (kind : Kind) (state : State) : List String :=
  state.cookies.flatMap (carries kind) ++ state.serving.flatMap (copied kind) ++ kind.accepted state

/-- A cookie with a nonce or a token is presented only once. -/
def PresentedOnce (state : State) : Event → Prop
  | .receive (some index) _ => ∀ cookie, state.cookies[index]? = some cookie →
      cookie.session.loginNonce ≠ none ∨ cookie.session.csrfToken ≠ none → cookie.presented = false
  | _ => True

variable {state next : State}

theorem carries_all {kind : Kind} {cookie : Cookie}
    (first : cookie.session.loginNonce ≠ none ∨ cookie.session.csrfToken ≠ none → cookie.presented = false) :
    carries kind cookie = (kind.value cookie.session).toList := by
  unfold carries
  by_cases presented : cookie.presented = true
  · have bare : kind.value cookie.session = none := by
      by_contra valued
      have kept : cookie.presented = false := first (by cases kind <;> [exact .inl valued; exact .inr valued])
      rw [presented] at kept
      cases kept
    rw [if_pos presented, bare]
    rfl
  · exact if_neg presented

theorem receive_held {kind : Kind} {index : Nat} {cookie : Cookie} {request : Request}
    (found : state.cookies[index]? = some cookie) (whole : carries kind cookie = (kind.value cookie.session).toList) :
    (held kind { state with
      cookies := state.cookies.set index { cookie with presented := true }
      serving := state.serving ++ [(cookie.session, request)] }).Subperm (held kind state) := by
  have moved : (carries kind cookie ++ (state.cookies.set index { cookie with presented := true }).flatMap (carries kind)).Perm
      (carries kind { cookie with presented := true } ++ state.cookies.flatMap (carries kind)) := flatMap_set found
  have spent : carries kind { cookie with presented := true } = [] := rfl
  rw [whole, spent, List.nil_append] at moved
  apply List.subperm_ext_iff.mpr
  intro value _
  have counted := moved.count_eq value
  simp only [held, List.flatMap_append, List.flatMap_singleton, List.count_append, copied] at counted ⊢
  cases kind <;> simp only [Kind.accepted] <;> omega

theorem answer_held {kind : Kind} {index : Nat} {session : ClientSession} {request : Request} {served : Served}
    (found : state.serving[index]? = some (session, request)) (passes : Passes kind session served) :
    ((state.cookies ++ served.session.toList.map fun session => ({ session } : Cookie)).flatMap (carries kind) ++
        (state.serving.eraseIdx index).flatMap (copied kind) ++
        (kind.accepted state ++ (kind.spends served).toList)).Subperm (served.drew.toList ++ held kind state) := by
  have moved : (copied kind (session, request) ++ (state.serving.eraseIdx index).flatMap (copied kind)).Perm
      (state.serving.flatMap (copied kind)) := flatMap_take found
  have answered : (served.session.toList.map fun session => ({ session } : Cookie)).flatMap (carries kind) =
      (served.session.bind kind.value).toList := by
    cases served.session with
    | none => rfl
    | some next => simp [carries]
  apply List.subperm_ext_iff.mpr
  intro value _
  have counted := moved.count_eq value
  have passed := passes.count_le value
  simp only [held, List.flatMap_append, answered, List.count_append, copied] at counted passed ⊢
  omega

theorem step_unique (kind : Kind) {event : Event} (guarded : PresentedOnce state event)
    (unique : Unique (held kind state) state.drawn) (taken : step host state event = some next) :
    Unique (held kind next) next.drawn := by
  cases event with
  | receive cookie request =>
    cases cookie with
    | none =>
      cases taken
      refine unique.move (List.Perm.subperm ?_)
      cases kind <;> simp [held, copied, Kind.value, Kind.accepted]
    | some index =>
      simp only [step, Option.bind_eq_bind, Option.bind_eq_some_iff, Option.some.injEq] at taken
      obtain ⟨cookie, found, rfl⟩ := taken
      exact unique.move (receive_held found (carries_all (guarded cookie found)))
  | answer index =>
    simp only [step, Option.bind_eq_bind, Option.bind_eq_some_iff] at taken
    obtain ⟨⟨session, request⟩, found, answered⟩ := taken
    split at answered
    next => cases answered
    next fresh =>
      cases answered
      refine unique.draw ?_ ?_ ?_
      · cases (serve host state.db state.storage session request).drew <;> simp
      · intro value drawn known
        apply fresh
        exact (Option.any_eq_true _ _).mpr ⟨value, Option.mem_toList.mp drawn, decide_eq_true known⟩
      · cases kind with
        | nonce => exact answer_held found (serve_passes .nonce request)
        | csrf => exact answer_held found (serve_passes .csrf request)
  | elsewhere db storage =>
    cases taken
    cases kind <;> exact unique

/-- The values that the requests being served bring to be checked. -/
def checking (kind : Kind) (state : State) : List String := state.serving.flatMap (posted kind)

/-- A request that checks a value brings none that has been accepted before, or that
another one being served brings to be checked. -/
def Unspent (state : State) : Event → Prop
  | .receive (some index) request => ∀ cookie, state.cookies[index]? = some cookie → ∀ kind : Kind, kind.checks request = true →
      ∀ value, kind.value cookie.session = some value → value ∉ checking kind state ++ kind.accepted state
  | _ => True

/-- Cookies with values that are presented only once bring none that is spent. -/
theorem PresentedOnce.unspent {event : Event} (once : PresentedOnce state event)
    (unique : ∀ kind, Unique (held kind state) state.drawn) : Unspent state event := by
  cases event with
  | answer | elsewhere => trivial
  | receive cookie request =>
    cases cookie with
    | none => trivial
    | some index =>
      intro cookie found kind _ value valued
      have whole := @carries_all kind cookie (once cookie found)
      have carried : value ∈ state.cookies.flatMap (carries kind) := by
        refine List.mem_flatMap.mpr ⟨cookie, List.mem_of_getElem? found, ?_⟩
        rw [whole, valued]
        exact List.mem_singleton_self _
      have apart := (unique kind).nodup
      rw [held, List.append_assoc, List.nodup_append] at apart
      intro spent
      refine apart.2.2 value carried value ?_ rfl
      rcases List.mem_append.mp spent with serving | accepted
      · obtain ⟨other, inside, brought⟩ := List.mem_flatMap.mp serving
        unfold posted at brought
        split at brought
        next => exact List.mem_append_left _ (List.mem_flatMap.mpr ⟨other, inside, brought⟩)
        next => cases brought
      · exact List.mem_append_right _ accepted

theorem step_settled (kind : Kind) {event : Event} (unspent : Unspent state event)
    (settled : (checking kind state ++ kind.accepted state).Nodup) (taken : step host state event = some next) :
    (checking kind next ++ kind.accepted next).Nodup := by
  cases event with
  | receive cookie request =>
    cases cookie with
    | none =>
      cases taken
      have bare : posted kind ({}, request) = [] := by
        unfold posted
        split <;> cases kind <;> rfl
      have same : checking kind { state with serving := state.serving ++ [({}, request)] } = checking kind state := by
        rw [checking, List.flatMap_append, List.flatMap_singleton, bare, List.append_nil]
        rfl
      rw [same]
      cases kind <;> exact settled
    | some index =>
      simp only [step, Option.bind_eq_bind, Option.bind_eq_some_iff, Option.some.injEq] at taken
      obtain ⟨cookie, found, rfl⟩ := taken
      have added : (checking kind state ++ posted kind (cookie.session, request) ++ kind.accepted state).Nodup := by
        have moved : (checking kind state ++ posted kind (cookie.session, request) ++ kind.accepted state).Perm
            (posted kind (cookie.session, request) ++ (checking kind state ++ kind.accepted state)) := by
          rw [← List.append_assoc]
          exact List.perm_append_comm.append_right _
        refine moved.nodup_iff.mpr (List.nodup_append.mpr ⟨?_, settled, ?_⟩)
        · unfold posted
          split
          next => cases kind.value (cookie.session, request).1 <;> simp
          next => exact List.nodup_nil
        · rintro value brought _ spent rfl
          unfold posted at brought
          split at brought
          next checks => exact unspent cookie found kind checks value (Option.mem_toList.mp brought) spent
          next => cases brought
      have grown : checking kind { state with
          cookies := state.cookies.set index { cookie with presented := true }
          serving := state.serving ++ [(cookie.session, request)] } =
            checking kind state ++ posted kind (cookie.session, request) := by
        rw [checking, List.flatMap_append, List.flatMap_singleton]
        rfl
      rw [grown]
      cases kind <;> exact added
  | answer index =>
    simp only [step, Option.bind_eq_bind, Option.bind_eq_some_iff] at taken
    obtain ⟨⟨session, request⟩, found, answered⟩ := taken
    split at answered
    next => cases answered
    next =>
      cases answered
      have moved : (posted kind (session, request) ++ (state.serving.eraseIdx index).flatMap (posted kind)).Perm
          (checking kind state) := flatMap_take found
      have spends := @serve_spends host state.db state.storage session kind request
      have fewer : ((state.serving.eraseIdx index).flatMap (posted kind) ++
          (kind.accepted state ++ (kind.spends (serve host state.db state.storage session request)).toList)).Subperm
            (checking kind state ++ kind.accepted state) := by
        apply List.subperm_ext_iff.mpr
        intro value _
        have counted := moved.count_eq value
        have passed := spends.count_le value
        simp only [List.count_append] at counted passed ⊢
        omega
      obtain ⟨whole, perm, sublist⟩ := List.subperm_iff.mp fewer
      have nodup := (perm.nodup_iff.mpr settled).sublist sublist
      cases kind <;> exact nodup
  | elsewhere db storage =>
    cases taken
    cases kind <;> exact settled

theorem serve_signedIn (request : Request) :
    (serve host db storage session request).signedIn.toList.Sublist
      (serve host db storage session request).acceptedNonce.toList := by
  cases request with
  | page | lnurlRedirect | registerPost | consentPage =>
    simp only [serve]
    split <;> exact List.Sublist.refl _
  | logout | authorize | other => exact List.Sublist.refl _
  | loginPost form =>
    simp only [serve]
    split
    next => exact List.nil_sublist _
    next =>
      dsimp only
      split
      next => exact List.Sublist.refl _
      next => exact List.nil_sublist _

theorem serve_issuedCode (request : Request) :
    (serve host db storage session request).issuedCode.toList.Sublist
      (serve host db storage session request).acceptedCsrf.toList := by
  cases request with
  | page | lnurlRedirect | registerPost | consentPage | loginPost =>
    simp only [serve]
    split <;> exact List.Sublist.refl _
  | logout | other => exact List.Sublist.refl _
  | authorize form granted =>
    simp only [serve]
    split
    next user answered =>
      rw [answered]
      cases granted with
      | true => exact List.Sublist.refl _
      | false => exact List.nil_sublist _
    next => exact List.nil_sublist _

/-- Every sign-in and every code is of an accepted value. -/
structure Effects (state : State) : Prop where
  signIns : state.signIns.Sublist state.acceptedNonces
  codes : state.codes.Sublist state.acceptedCsrf

theorem step_effects {event : Event} (effects : Effects state) (taken : step host state event = some next) : Effects next := by
  cases event with
  | receive cookie request =>
    cases cookie with
    | none => cases taken; exact ⟨effects.signIns, effects.codes⟩
    | some index =>
      simp only [step, Option.bind_eq_bind, Option.bind_eq_some_iff, Option.some.injEq] at taken
      obtain ⟨cookie, -, rfl⟩ := taken
      exact ⟨effects.signIns, effects.codes⟩
  | answer index =>
    simp only [step, Option.bind_eq_bind, Option.bind_eq_some_iff] at taken
    obtain ⟨⟨session, request⟩, -, answered⟩ := taken
    split at answered
    next => cases answered
    next =>
      cases answered
      exact ⟨effects.signIns.append (serve_signedIn request), effects.codes.append (serve_issuedCode request)⟩
  | elsewhere db storage => cases taken; exact ⟨effects.signIns, effects.codes⟩

/-- No login nonce and no consent token was accepted twice, and none led to two
sign-ins or two authorization codes. -/
structure SingleUse (state : State) : Prop where
  nonces : state.acceptedNonces.Nodup
  csrf : state.acceptedCsrf.Nodup
  signIns : state.signIns.Nodup
  codes : state.codes.Nodup

theorem unique_initial (kind : Kind) (db : Db) : Unique (held kind (initial db)) (initial db).drawn := by
  refine ⟨?_, ?_⟩
  · cases kind <;> exact List.nodup_nil
  · cases kind <;> exact List.forall_mem_nil _

theorem unspent_run {db : Db} {events : List Event} (unspent : Along (step host) Unspent (initial db) events)
    (executed : run (step host) (initial db) events = some state) : SingleUse state := by
  obtain ⟨settled, effects⟩ := run_invariant_along
    (fun state => (∀ kind : Kind, (checking kind state ++ kind.accepted state).Nodup) ∧ Effects state)
    (by
      rintro state event next ⟨settled, effects⟩ allowed taken
      exact ⟨fun kind => step_settled kind allowed (settled kind) taken, step_effects effects taken⟩)
    unspent ⟨fun kind => by cases kind <;> exact List.nodup_nil, ⟨List.Sublist.refl _, List.Sublist.refl _⟩⟩ executed
  have accepted : ∀ kind : Kind, (kind.accepted state).Nodup :=
    fun kind => (settled kind).sublist (List.sublist_append_right _ _)
  exact ⟨accepted .nonce, accepted .csrf, (accepted .nonce).sublist effects.signIns, (accepted .csrf).sublist effects.codes⟩

/-- A client that presents every cookie with a nonce or a token only once, in whatever
order and however many requests are served at once, has no value accepted twice. -/
theorem cookies_presented_once {db : Db} {events : List Event} (once : Along (step host) PresentedOnce (initial db) events)
    (executed : run (step host) (initial db) events = some state) : SingleUse state := by
  refine unspent_run (.of_run executed ?_) executed
  rintro first event second reached next rfl partway taken rest
  obtain ⟨before, now⟩ := once.append partway
  apply PresentedOnce.unspent now.1
  exact run_invariant_along (fun state => ∀ kind, Unique (held kind state) state.drawn)
    (fun _ _ _ unique allowed taken kind => step_unique kind allowed (unique kind) taken) before
    (fun kind => unique_initial kind db) partway

def satoshi : User := ⟨1, none, some "satoshi@example.com", some "satoshi", some "1$correct horse", "Satoshi"⟩

def satoshiForm : LoginForm := ⟨"satoshi", "correct horse", some "/profile", some "nonce-1"⟩

/-- A login page, its form, a consent page, and its form. -/
def signInAndConsent : List Event :=
  [.receive none (.page .login (some "/profile") "nonce-1"), .answer 0, .receive (some 0) (.loginPost satoshiForm), .answer 0,
    .receive (some 1) (.consentPage true "csrf-1"), .answer 0,
    .receive (some 2) (.authorize ⟨.approve, "csrf-1"⟩ true), .answer 0]

/-- The same, after which the two cookies with a form's value are brought again. -/
def replayed : List Event :=
  signInAndConsent ++ [.receive (some 0) (.loginPost satoshiForm), .answer 0,
    .receive (some 2) (.authorize ⟨.approve, "csrf-1"⟩ true), .answer 0]

end Satoidc.Proofs.CookieReplay
