import Satoidc.Destinations
import Satoidc.Foundation.UnquotedValue
import Satoidc.Proofs.RedirectSafety

/-! A destination that is quoted into a query comes out of it as it was, and so every
route keeps it that quotes it. The event handler of the register page does not, and the
hidden inputs keep what a form makes of them. -/

namespace Satoidc.Proofs.DestinationRoutes
open Foundation Navigation

/-- A request for this URL has the destination as its parameter. -/
def Carries (url destination : String) : Prop := queryParameter "redirect_to" (requestQuery url) = some destination

theorem Carries.redirectTo {url destination : String} (carries : Carries url destination) (default : String) :
    redirectTo default url = some destination := by
  rw [Navigation.redirectTo, carries]
  rfl

theorem isName_redirectTo : IsName "redirect_to".toList := by decide

/-- A text that a quoted destination may follow. -/
theorem carries_quoted {lead : String} {path front : List Char} (plainPath : IsPlainUrl path) (mark : '?' ∉ path)
    (plainFront : IsPlainUrl front) (before : front = [] ∨ ∃ fields, front = fields ++ ['&'])
    (split : lead.toList = path ++ '?' :: (front ++ "redirect_to".toList ++ ['='])) (destination : String) :
    Carries (lead ++ quote destination) destination := by
  apply queryParameter_quoted before _ plainPath mark plainFront isName_redirectTo
  rw [String.toList_append, split]
  simp only [List.append_assoc, List.cons_append]

theorem carries_login (destination : String) : Carries ("/login?redirect_to=" ++ quote destination) destination := by
  have plain : IsPlainUrl "/login".toList := by decide
  exact carries_quoted plain (by decide) (by decide) (.inl rfl) rfl destination

theorem carries_invalid (destination : String) :
    Carries ("/login?err=invalid&redirect_to=" ++ quote destination) destination := by
  have plain : IsPlainUrl "/login".toList := by decide
  have plainFront : IsPlainUrl "err=invalid&".toList := by decide
  exact carries_quoted plain (by decide) plainFront (.inr ⟨"err=invalid".toList, rfl⟩) rfl destination

theorem carries_register {err : String} (named : IsName err.toList) (destination : String) :
    Carries ("/register?err=" ++ err ++ "&redirect_to=" ++ quote destination) destination := by
  have plain : IsPlainUrl "/register".toList := by decide
  have plainFront : IsPlainUrl ("err=".toList ++ err.toList ++ ['&']) := by
    intro c member
    simp only [List.mem_append, List.mem_singleton] at member
    obtain (label | inside) | rfl := member
    · have every : IsPlainUrl "err=".toList := by decide
      exact every c label
    · exact named.quoted.plainUrl c inside
    · rfl
  apply carries_quoted plain (by decide) plainFront (.inr ⟨_, rfl⟩) _ destination
  simp only [String.toList_append, List.append_assoc]
  rfl

theorem carries_lnurl (destination : String) : Carries (PageKind.login.lnurlRedirectUrl destination) destination := by
  have plain : IsPlainUrl "/auth/lnurl/redirect".toList := by decide
  exact carries_quoted plain (by decide) (by decide) (.inl rfl) rfl destination

theorem carries_unquoted_iff {lead : String} {path : List Char} (plainPath : IsPlainUrl path) (mark : '?' ∉ path)
    (split : lead.toList = path ++ '?' :: ("redirect_to".toList ++ ['='])) (destination : String) :
    Carries (lead ++ destination) destination ↔ MeansItself destination.toList := by
  apply queryParameter_unquoted_iff _ plainPath mark isName_redirectTo
  rw [String.toList_append, split]
  simp only [List.append_assoc, List.cons_append]

/-- The register page hands the destination on as it is. -/
theorem carries_lnurl_register (destination : String) :
    Carries (PageKind.register.lnurlRedirectUrl destination) destination ↔ MeansItself destination.toList := by
  have plain : IsPlainUrl "/auth/lnurl/redirect".toList := by decide
  exact carries_unquoted_iff plain (by decide) rfl destination

/-- What holds of the page that a browser is sent back to, and of its session. -/
structure Ready (kind : PageKind) (destination : String) (session : Session) (page : SignIn.Page) : Prop where
  kind : page.kind = kind
  destination : page.redirectTo = destination
  signedOut : session.userId = none
  nonce : ∃ nonce : Nonce, session.loginNonce = some nonce.text ∧ page.nonce = nonce.text

section pages
variable {host : Host} {kind : PageKind} {destination : String} {session : Session}

theorem openPage_ready (checked : safeRedirect host (some destination) = .ok destination) {browser : Nat} {nonce : Nonce}
    {before : Session} {page : SignIn.Page}
    (opened : SignIn.openPage host kind browser nonce.text before (some destination) = .ok (.shown session page)) :
    Ready kind destination session page := by
  simp only [SignIn.openPage, checked, Bind.bind, Except.bind] at opened
  split_ifs at opened with signedIn
  · cases opened
  · cases opened
    exact ⟨rfl, rfl, not_not.mp signedIn, nonce, rfl, rfl⟩

theorem openPage_shown (checked : safeRedirect host (some destination) = .ok destination) (signedOut : session.userId = none)
    (kind : PageKind) (browser : Nat) (nonce : Nonce) :
    ∃ after page, SignIn.openPage host kind browser nonce.text session (some destination) = .ok (.shown after page) ∧
      Ready kind destination after page := by
  have opened : SignIn.openPage host kind browser nonce.text session (some destination) =
      .ok (.shown { session with loginNonce := some nonce.text }
        { browser, nonce := nonce.text, kind, redirectTo := destination }) := by
    simp only [SignIn.openPage, checked, Bind.bind, Except.bind, signedOut, ne_eq, not_true, if_false]
  exact ⟨_, _, opened, openPage_ready checked opened⟩

/-- Posts that each send the browser back to the page leave it ready. -/
theorem retry_ready (checked : safeRedirect host (some destination) = .ok destination) {α : Type}
    {post : Session → SignIn.Page → α → Session × Except PyError String} {Sent : α → Prop}
    (back : ∀ session page attempt, Ready kind destination session page → Sent attempt →
      ∃ after url, post session page attempt = (after, .ok url) ∧ after.userId = none ∧ Carries url destination)
    (attempts : List (α × Nonce)) (sent : ∀ attempt ∈ attempts, Sent attempt.1) {page : SignIn.Page}
    (ready : Ready kind destination session page) :
    ∃ after last, retry host post session page attempts = .ok (.shown after last) ∧ Ready kind destination after last := by
  induction attempts generalizing session page with
  | nil => exact ⟨session, page, rfl, ready⟩
  | cons head later ih =>
    obtain ⟨attempt, nonce⟩ := head
    obtain ⟨answered, url, posted, signedOut, carries⟩ := back session page attempt ready (sent _ List.mem_cons_self)
    obtain ⟨after, last, opened, again⟩ := openPage_shown checked signedOut kind page.browser nonce
    obtain ⟨final, shown, retried, done⟩ := ih (fun other member => sent other (List.mem_cons_of_mem _ member)) again
    refine ⟨final, shown, ?_, done⟩
    have visited : visit host page.kind page.browser nonce answered url = .ok (.shown after last) := by
      rw [visit, carries.redirectTo, ready.kind, opened]
    simp only [retry, posted, Bind.bind, Except.bind, visited, retried]

end pages

theorem loginPost_matching {host : Host} {db : Db} {session : Session} {form : LoginForm} {nonce : Nonce}
    (expected : session.loginNonce = some nonce.text) (posted : form.loginNonce = some nonce.text) :
    loginPost host db session form =
      match safeRedirect host form.redirectTo with
      | .error raised => ({ session with loginNonce := none }, .error raised)
      | .ok nxt =>
        match db.userByIdentifier form.identifier with
        | none => ({ session with loginNonce := none }, .ok ("/login?err=invalid&redirect_to=" ++ quote nxt))
        | some user =>
          match host.verify form.password user.passwordHash with
          | .error raised => ({ session with loginNonce := none }, .error raised)
          | .ok false => ({ session with loginNonce := none }, .ok ("/login?err=invalid&redirect_to=" ++ quote nxt))
          | .ok true => ({ session with loginNonce := none, userId := some user.id }, .ok nxt) := by
  have given : truthy (some nonce.text) = true := by simp [truthy, nonce.nonempty]
  rw [loginPost, expected, posted]
  simp only [given, Bool.not_true, Bool.false_or, ne_eq, not_true]
  rfl

/-- The credentials of an attempt are not those of an account. -/
def Rejected (host : Host) (attempt : LoginAttempt) : Prop :=
  attempt.db.userByIdentifier attempt.identifier = none ∨
    ∃ user, attempt.db.userByIdentifier attempt.identifier = some user ∧
      host.verify attempt.password user.passwordHash = .ok false

def Accepted (host : Host) (attempt : LoginAttempt) : Prop :=
  ∃ user, attempt.db.userByIdentifier attempt.identifier = some user ∧
    host.verify attempt.password user.passwordHash = .ok true

section login
variable {host : Host} {forms : Forms} {destination : String} {session : Session} {page : SignIn.Page} {attempt : LoginAttempt}

/-- An accepted login is sent to what the hidden input posts. -/
theorem postLogin_accepted (ready : Ready .login destination session page) (accepted : Accepted host attempt) :
    (postLogin host forms session page attempt).2 = safeRedirect host (forms.received (hiddenValue destination)) := by
  obtain ⟨user, found, verified⟩ := accepted
  obtain ⟨nonce, expected, shown⟩ := ready.nonce
  have posted : forms.received page.nonce = some nonce.text := shown ▸ forms.hex nonce.text nonce.nonempty nonce.digits
  rw [postLogin, loginPost_matching expected posted, ready.destination]
  cases safeRedirect host (forms.received (hiddenValue destination)) with
  | error raised => rfl
  | ok nxt => simp only [found, verified]

theorem postLogin_rejected (ready : Ready .login destination session page) (rejected : Rejected host attempt)
    (kept : safeRedirect host (forms.received (hiddenValue destination)) = .ok destination) :
    ∃ after url, postLogin host forms session page attempt = (after, .ok url) ∧ after.userId = none ∧
      Carries url destination := by
  obtain ⟨nonce, expected, shown⟩ := ready.nonce
  have posted : forms.received page.nonce = some nonce.text := shown ▸ forms.hex nonce.text nonce.nonempty nonce.digits
  refine ⟨{ session with loginNonce := none }, _, ?_, ready.signedOut, carries_invalid destination⟩
  rw [postLogin, loginPost_matching expected posted, ready.destination, kept]
  obtain missing | ⟨user, found, refused⟩ := rejected
  · simp only [missing]
  · simp only [found, refused]

end login

section registration
variable {host : Host} {forms : Forms} {destination : String} {session : Session} {page : SignIn.Page}
  {attempt : RegisterAttempt}

/-- The form of an attempt is refused, whatever its destination is. -/
def Refused (host : Host) (attempt : RegisterAttempt) : Prop :=
  ∃ err redirectTo, registerCheck host attempt.db { attempt.form with redirectTo := none } = .ok (.refused err redirectTo)

/-- The form of an attempt is accepted, and its account can be stored. -/
def Registers (host : Host) (attempt : RegisterAttempt) : Prop :=
  (∃ redirectTo, registerCheck host attempt.db { attempt.form with redirectTo := none } = .ok (.accepted redirectTo)) ∧
    UserConstraints (attempt.db.users.rows ++ [registeredUser host attempt.uuid attempt.salt attempt.form])

/-- What `register_post` decides about a form, once its destination is checked. -/
def decision (host : Host) (db : Db) (form : RegisterForm) : Option String :=
  if !form.termsAccepted then some "terms"
  else if validateRegistrationForm host.isValidEmail form.cleanLogin form.cleanNickname form.password
      (form.cleanEmail host) ≠ [] then some "invalid"
  else if form.password ≠ form.confirmPassword then some "password_mismatch"
  else if db.users.rows.any fun user => user.login = some form.cleanLogin || user.email = some (form.cleanEmail host) then
    some "duplicate"
  else none

theorem decision_named {db : Db} {form : RegisterForm} {err : String} (refused : decision host db form = some err) :
    IsName err.toList := by
  unfold decision at refused
  split_ifs at refused <;> cases refused <;> decide

theorem registerCheck_decision {db : Db} {form : RegisterForm} {redirectTo : Option String} :
    registerCheck host db { form with redirectTo } = (safeRedirect host redirectTo).map fun value =>
      match decision host db form with
      | some err => .refused err value
      | none => .accepted value := by
  have login : { form with redirectTo }.cleanLogin = form.cleanLogin := rfl
  have email : { form with redirectTo }.cleanEmail host = form.cleanEmail host := rfl
  have nickname : { form with redirectTo }.cleanNickname = form.cleanNickname := rfl
  unfold registerCheck decision
  rw [login, email, nickname]
  cases safeRedirect host redirectTo with
  | error raised => rfl
  | ok value =>
    simp only [Bind.bind, Except.bind, Except.map]
    split_ifs <;> rfl

theorem registerCheck_refused {db : Db} {form : RegisterForm} {err elsewhere : String}
    (refused : registerCheck host db { form with redirectTo := none } = .ok (.refused err elsewhere)) :
    decision host db form = some err := by
  rw [registerCheck_decision] at refused
  have home : safeRedirect host none = .ok "/" := rfl
  rw [home, Except.map] at refused
  cases decided : decision host db form with
  | none =>
    rw [decided] at refused
    cases refused
  | some other =>
    rw [decided] at refused
    cases refused
    rfl

theorem registerCheck_accepted {db : Db} {form : RegisterForm} {elsewhere : String}
    (accepted : registerCheck host db { form with redirectTo := none } = .ok (.accepted elsewhere)) :
    decision host db form = none := by
  rw [registerCheck_decision] at accepted
  have home : safeRedirect host none = .ok "/" := rfl
  rw [home, Except.map] at accepted
  cases decided : decision host db form with
  | none => rfl
  | some other =>
    rw [decided] at accepted
    cases accepted

/-- An accepted registration is sent to what the hidden input posts. -/
theorem postRegister_accepted (ready : Ready .register destination session page) (registers : Registers host attempt) :
    (postRegister host forms session page attempt).2 =
      safeRedirect host ((forms.received (escape destination)).or (some "/profile")) := by
  obtain ⟨⟨elsewhere, accepted⟩, valid⟩ := registers
  have stored : (Table.store (attempt.db.users.rows ++ [registeredUser host attempt.uuid attempt.salt attempt.form]) :
      Option (Table User UserConstraints)) = some ⟨_, valid⟩ := dif_pos valid
  rw [postRegister, registerPost, ready.destination, registerCheck_decision, registerCheck_accepted accepted]
  cases safeRedirect host ((forms.received (escape destination)).or (some "/profile")) with
  | error raised => rfl
  | ok value =>
    have same : registeredUser host attempt.uuid attempt.salt
        { attempt.form with redirectTo := (forms.received (escape destination)).or (some "/profile") } =
        registeredUser host attempt.uuid attempt.salt attempt.form := rfl
    simp only [Except.map, same, stored]

theorem postRegister_refused (ready : Ready .register destination session page) (refused : Refused host attempt)
    (checked : safeRedirect host (some destination) = .ok destination)
    (kept : safeRedirect host ((forms.received (escape destination)).or (some "/profile")) = .ok destination) :
    ∃ after url, postRegister host forms session page attempt = (after, .ok url) ∧ after.userId = none ∧
      Carries url destination := by
  obtain ⟨err, elsewhere, refused⟩ := refused
  have decided := registerCheck_refused refused
  refine ⟨session, _, ?_, ready.signedOut, carries_register (decision_named decided) destination⟩
  rw [postRegister, registerPost, ready.destination, registerCheck_decision, decided, kept]
  simp only [Except.map, registerRedirect, checked, Bind.bind, Except.bind]

end registration

theorem bounced_carries {path query url : String} {session : Session}
    (bounced : AuthMiddleware.dispatch path query session = .redirected url) :
    Carries url (AuthMiddleware.fullPath path query) := by
  unfold AuthMiddleware.dispatch at bounced
  split_ifs at bounced
  cases bounced
  exact carries_login _

theorem visitLnurlRedirect_carried {host : Host} {url destination : String} (carries : Carries url destination)
    (storage : String → Option UserId) (session : Session) :
    visitLnurlRedirect host storage session url = safeRedirect host (some destination) := by
  rw [visitLnurlRedirect, carries.redirectTo, lnurlRedirect]
  cases safeRedirect host (some destination) with
  | error raised => rfl
  | ok value => cases session.loginNonce <;> rfl

/-- The destination survives every way to sign in: the bounce of its request, a login
after any number of rejected ones, a wallet that completes the k1 of either page, and a
registration after any number of refused ones. -/
structure Arrives (host : Host) (forms : Forms) (login : LoginAttempt) (registration : RegisterAttempt)
    (destination : String) : Prop where
  bounced : ∀ path query session url, AuthMiddleware.fullPath path query = destination →
    AuthMiddleware.dispatch path query session = .redirected url → Carries url destination
  passwordLogin : ∀ browser (nonce : Nonce) before session page,
    SignIn.openPage host .login browser nonce.text before (some destination) = .ok (.shown session page) →
    ∀ attempts : List (LoginAttempt × Nonce), (∀ attempt ∈ attempts, Rejected host attempt.1) →
    ∃ after last, retry host (postLogin host forms) session page attempts = .ok (.shown after last) ∧
      (postLogin host forms after last login).2 = .ok destination
  lnurl : ∀ kind browser (nonce : Nonce) before session page,
    SignIn.openPage host kind browser nonce.text before (some destination) = .ok (.shown session page) →
    ∀ storage k1 userId, ∃ url,
      (SignIn.eventHandler storage { page with k1 := some k1 } { k1, userId }).2.location = some url ∧
        Carries url destination ∧ ∀ storage session, visitLnurlRedirect host storage session url = .ok destination
  passwordRegistration : ∀ browser (nonce : Nonce) before session page,
    SignIn.openPage host .register browser nonce.text before (some destination) = .ok (.shown session page) →
    ∀ attempts : List (RegisterAttempt × Nonce), (∀ attempt ∈ attempts, Refused host attempt.1) →
    ∃ after last, retry host (postRegister host forms) session page attempts = .ok (.shown after last) ∧
      (postRegister host forms after last registration).2 = .ok destination

/-- The destinations that the forms give back, and that mean themselves in a query. -/
structure Survives (host : Host) (forms : Forms) (destination : String) : Prop where
  loginForm : safeRedirect host (forms.received (hiddenValue destination)) = .ok destination
  registerForm : safeRedirect host ((forms.received (escape destination)).or (some "/profile")) = .ok destination
  itself : MeansItself destination.toList

section routes
variable {host : Host} {forms : Forms} {login : LoginAttempt} {registration : RegisterAttempt} {destination : String}

theorem eventHandler_location {kind : PageKind} {page : SignIn.Page} (shown : page.kind = kind ∧ page.redirectTo = destination)
    (storage : String → Option UserId) (k1 : String) (userId : Option UserId) :
    (SignIn.eventHandler storage { page with k1 := some k1 } { k1, userId }).2.location =
      some (kind.lnurlRedirectUrl destination) := by
  obtain ⟨rfl, rfl⟩ := shown
  rw [SignIn.eventHandler, if_pos rfl]

theorem Survives.carries (survives : Survives host forms destination) (kind : PageKind) :
    Carries (kind.lnurlRedirectUrl destination) destination := by
  cases kind with
  | login => exact carries_lnurl destination
  | register => exact (carries_lnurl_register destination).mpr survives.itself

theorem Survives.arrives (survives : Survives host forms destination)
    (checked : safeRedirect host (some destination) = .ok destination) (accepted : Accepted host login)
    (registers : Registers host registration) : Arrives host forms login registration destination := by
  constructor
  case bounced =>
    intro path query session url same bounced
    exact same ▸ bounced_carries bounced
  case passwordLogin =>
    intro browser nonce before session page opened attempts rejected
    have back : ∀ session page attempt, Ready .login destination session page → Rejected host attempt →
        ∃ after url, postLogin host forms session page attempt = (after, .ok url) ∧ after.userId = none ∧
          Carries url destination :=
      fun _ _ _ ready rejected => postLogin_rejected ready rejected survives.loginForm
    obtain ⟨after, last, retried, ready⟩ := retry_ready checked back attempts rejected (openPage_ready checked opened)
    exact ⟨after, last, retried, (postLogin_accepted ready accepted).trans survives.loginForm⟩
  case lnurl =>
    intro kind browser nonce before session page opened storage k1 userId
    have ready := openPage_ready checked opened
    refine ⟨_, eventHandler_location ⟨ready.kind, ready.destination⟩ storage k1 userId, survives.carries kind, ?_⟩
    intro storage session
    exact (visitLnurlRedirect_carried (survives.carries kind) storage session).trans checked
  case passwordRegistration =>
    intro browser nonce before session page opened attempts refused
    have back : ∀ session page attempt, Ready .register destination session page → Refused host attempt →
        ∃ after url, postRegister host forms session page attempt = (after, .ok url) ∧ after.userId = none ∧
          Carries url destination :=
      fun _ _ _ ready refused => postRegister_refused ready refused checked survives.registerForm
    obtain ⟨after, last, retried, ready⟩ := retry_ready checked back attempts refused (openPage_ready checked opened)
    exact ⟨after, last, retried, (postRegister_accepted ready registers).trans survives.registerForm⟩

theorem Arrives.survives (arrives : Arrives host forms login registration destination)
    (checked : safeRedirect host (some destination) = .ok destination) (accepted : Accepted host login)
    (registers : Registers host registration) (nonce : Nonce) : Survives host forms destination := by
  have fresh : ({} : Session).userId = none := rfl
  obtain ⟨session, page, opened, ready⟩ := openPage_shown checked fresh .login 0 nonce
  obtain ⟨signup, form, shown, waiting⟩ := openPage_shown checked fresh .register 0 nonce
  constructor
  case loginForm =>
    obtain ⟨after, last, retried, arrived⟩ := arrives.passwordLogin 0 nonce {} session page opened [] nofun
    cases retried
    exact (postLogin_accepted ready accepted).symm.trans arrived
  case registerForm =>
    obtain ⟨after, last, retried, arrived⟩ := arrives.passwordRegistration 0 nonce {} signup form shown [] nofun
    cases retried
    exact (postRegister_accepted waiting registers).symm.trans arrived
  case itself =>
    obtain ⟨url, located, carries, -⟩ := arrives.lnurl .register 0 nonce {} signup form shown (fun _ => none) "k1" none
    rw [eventHandler_location ⟨waiting.kind, waiting.destination⟩] at located
    cases located
    exact (carries_lnurl_register destination).mp carries

/-- A destination survives every way to sign in exactly if the two forms give it back and
it means itself in a query, where the event handler of the register page puts it unquoted. -/
theorem arrives_iff (checked : safeRedirect host (some destination) = .ok destination) (accepted : Accepted host login)
    (registers : Registers host registration) :
    Arrives host forms login registration destination ↔ Survives host forms destination := by
  have nonce : Nonce := ⟨"0", by decide, by decide⟩
  exact ⟨fun arrives => arrives.survives checked accepted registers nonce,
    fun survives => survives.arrives checked accepted registers⟩

end routes

/-- Forms that give back what they are given. -/
def asGiven : Forms where
  received text := some text
  hex _ _ _ := rfl

def alice : LoginAttempt where
  db := RedirectSafety.oneLogin
  identifier := "alice1"
  password := "Secret-42"

def bob : RegisterAttempt where
  db := RedirectSafety.oneLogin
  uuid := 2
  salt := 0
  form :=
    { login := "bobby2", email := "bob@example.com", password := "Secret-42", confirmPassword := "Secret-42"
      termsAccepted := true }

theorem alice_accepted : Accepted .ascii alice := ⟨_, rfl, by decide⟩

theorem bob_registers : Registers .ascii bob := ⟨⟨"/", by decide⟩, by decide⟩

/-- A tab of the profile page. -/
theorem profile_arrives : Arrives .ascii asGiven alice bob "/profile?tab=wallet" := by
  apply (arrives_iff (by decide) alice_accepted bob_registers).mpr
  refine ⟨by decide, by decide, ?_, ?_, by decide⟩
  · have marks : "/profile?tab=wallet".toList.all fun c => c ≠ '&' ∧ c ≠ '+' ∧ c ≠ '#' ∧ isTabOrNewline c = false := by decide
    simpa only [List.all_eq_true, decide_eq_true_eq] using marks
  · intro c last
    cases last
    rfl

/-- An authorize URL of which the scope is lost. -/
theorem scope_lost :
    safeRedirect .ascii (some "/oauth/authorize?client_id=a&scope=openid") = .ok "/oauth/authorize?client_id=a&scope=openid" ∧
      queryParameter "redirect_to" (requestQuery
        (PageKind.register.lnurlRedirectUrl "/oauth/authorize?client_id=a&scope=openid")) =
        some "/oauth/authorize?client_id=a" ∧
      ¬ Arrives .ascii asGiven alice bob "/oauth/authorize?client_id=a&scope=openid" := by
  have checked : safeRedirect .ascii (some "/oauth/authorize?client_id=a&scope=openid") =
    .ok "/oauth/authorize?client_id=a&scope=openid" := by decide
  have read : queryParameter "redirect_to" (requestQuery
      (PageKind.register.lnurlRedirectUrl "/oauth/authorize?client_id=a&scope=openid")) =
      some "/oauth/authorize?client_id=a" := by
    have address : "/auth/lnurl/redirect?redirect_to=".toList = _ := String.toList_ofList
    have page : "/oauth/authorize?client_id=a&scope=openid".toList = _ := String.toList_ofList
    have url : (PageKind.register.lnurlRedirectUrl "/oauth/authorize?client_id=a&scope=openid").toList = _ :=
      String.toList_append
    unfold queryParameter requestQuery
    rw [String.toList_ofList, url, address, page]
    decide
  refine ⟨checked, read, ?_⟩
  intro arrives
  have survives := arrives.survives checked alice_accepted bob_registers ⟨"0", by decide, by decide⟩
  exact (survives.itself.marks '&' (by decide)).1 rfl

end Satoidc.Proofs.DestinationRoutes
