import Satoidc.Foundation.Provenance
import Satoidc.Proofs.SignInSessions

/-! Where signed-in sessions come from. A browser has a session of a user only because
it signed in as that user itself: with the password, by registering the account, or
through the wallet that completed the k1 of its own page. -/

namespace Satoidc.Proofs.SessionOrigins
open Foundation SignIn SignInSessions

/-- The request signs its session in as the user. -/
inductive Authenticates (host : Host) (state : State) (cookie : Session) (user : UserId) : SignIn.Request → Prop where
  | password {form row} (stored : row ∈ state.db.users.rows) (account : row.id = user)
      (named : row.email = some form.identifier ∨ row.login = some form.identifier)
      (verified : host.verify form.password row.passwordHash = .ok true) :
      Authenticates host state cookie user (.loginPost form)
  | registration {salt form redirectTo} (accepted : registerCheck host state.db form = .ok (.accepted redirectTo)) :
      Authenticates host state cookie user (.registerPost user salt form)
  | wallet {redirectTo nonce} (signsIn : SignsIn host state cookie redirectTo nonce user) :
      Authenticates host state cookie user (.lnurlRedirect redirectTo)

section requests
variable {host : Host} {state : State} {cookie : Session} {user : UserId}

theorem loginPost_signedIn {db : Db} {session : Session} {form : LoginForm} {outcome : Except PyError String}
    (posted : loginPost host db cookie form = (session, outcome)) (signedIn : session.userId = some user) :
    cookie.userId = some user ∨ ∃ row ∈ db.users.rows, row.id = user ∧
      (row.email = some form.identifier ∨ row.login = some form.identifier) ∧
      host.verify form.password row.passwordHash = .ok true := by
  unfold loginPost at posted
  dsimp only at posted
  split at posted
  next => cases posted; exact .inl signedIn
  next =>
    split at posted
    next => cases posted; exact .inl signedIn
    next =>
      split at posted
      next => cases posted; exact .inl signedIn
      next row found =>
        split at posted
        next => cases posted; exact .inl signedIn
        next => cases posted; exact .inl signedIn
        next verified =>
          cases posted
          have named := List.find?_some found
          simp only [Bool.or_eq_true, decide_eq_true_eq] at named
          exact .inr ⟨row, List.mem_of_find?_eq_some found, Option.some.inj signedIn, named, verified⟩

theorem registerPost_signedIn {db after : Db} {session : Session} {uuid : UserId} {salt : Nat} {form : RegisterForm}
    {outcome : Except PyError String} (posted : registerPost host uuid salt db cookie form = (after, session, outcome))
    (signedIn : session.userId = some user) :
    cookie.userId = some user ∨ uuid = user ∧ ∃ redirectTo, registerCheck host db form = .ok (.accepted redirectTo) := by
  unfold registerPost at posted
  split at posted
  next => cases posted; exact .inl signedIn
  next => cases posted; exact .inl signedIn
  next redirectTo accepted =>
    split at posted
    next => cases posted; exact .inl signedIn
    next => cases posted; exact .inr ⟨Option.some.inj signedIn, redirectTo, accepted⟩

/-- What a browser is given by the answer to a request. -/
theorem respond_given {browser other : Nat} {session : Session} {request : SignIn.Request}
    (given : session ∈ (respond host state browser cookie request).cookies other) (signedIn : session.userId = some user) :
    session ∈ state.cookies other ∨
      other = browser ∧ (cookie.userId = some user ∨ Authenticates host state cookie user request) := by
  cases request with
  | page kind redirectTo nonce =>
    simp only [respond, openPage] at given
    cases safe : safeRedirect host redirectTo with
    | error raised => rw [safe] at given; exact .inl given
    | ok target =>
      rw [safe] at given
      simp only [Bind.bind, Except.bind] at given
      by_cases known : cookie.userId ≠ none
      · rw [if_pos known] at given
        rcases mem_give given with ⟨same, rfl⟩ | old
        · exact .inr ⟨same, .inl signedIn⟩
        · exact .inl old
      · rw [if_neg known] at given
        rcases mem_give given with ⟨same, rfl⟩ | old
        · exact .inr ⟨same, .inl signedIn⟩
        · exact .inl old
  | lnurlRedirect redirectTo =>
    simp only [respond] at given
    cases redirected : lnurlRedirect host state.storage cookie redirectTo with
    | error raised => rw [redirected] at given; exact .inl given
    | ok result =>
      obtain ⟨storage, answered, target⟩ := result
      rw [redirected] at given
      rcases mem_give given with ⟨same, rfl⟩ | old
      · refine .inr ⟨same, ?_⟩
        rcases redirect_signsIn redirected with rfl | ⟨nonce, entered, signsIn, rfl⟩
        · exact .inl signedIn
        · cases signedIn
          exact .inr (.wallet signsIn)
      · exact .inl old
  | loginPost form =>
    simp only [respond] at given
    cases posted : loginPost host state.db cookie form with
    | mk answered outcome =>
      rw [posted] at given
      cases outcome with
      | error raised => exact .inl given
      | ok target =>
        rcases mem_give given with ⟨same, rfl⟩ | old
        · refine .inr ⟨same, ?_⟩
          rcases loginPost_signedIn posted signedIn with before | ⟨row, stored, account, named, verified⟩
          · exact .inl before
          · exact .inr (.password stored account named verified)
        · exact .inl old
  | registerPost uuid salt form =>
    simp only [respond] at given
    cases posted : registerPost host uuid salt state.db cookie form with
    | mk db rest =>
      obtain ⟨answered, outcome⟩ := rest
      rw [posted] at given
      cases outcome with
      | error raised => exact .inl given
      | ok target =>
        rcases mem_give given with ⟨same, rfl⟩ | old
        · refine .inr ⟨same, ?_⟩
          rcases registerPost_signedIn posted signedIn with before | ⟨rfl, redirectTo, accepted⟩
          · exact .inl before
          · exact .inr (.registration accepted)
        · exact .inl old
  | logout =>
    rcases mem_give given with ⟨-, rfl⟩ | old
    · cases signedIn
    · exact .inl old

end requests

section runs
variable {env : Settings} {curve : Secp256k1} {host : Host} {db : Db} {state next : State} {event : SignIn.Event}

/-- Only the answer to a request of its own gives a browser a cookie. -/
theorem step_given (taken : SignIn.step env curve host state event = some next) {browser : Nat} {session : Session}
    {user : UserId}
    (given : session ∈ next.cookies browser) (signedIn : session.userId = some user) :
    session ∈ state.cookies browser ∨ ∃ cookie ∈ state.cookies browser, ∃ request, event = .request browser cookie request ∧
      (cookie.userId = some user ∨ Authenticates host state cookie user request) := by
  cases event with
  | request sender cookie request =>
    simp only [SignIn.step] at taken
    split at taken
    next brought =>
      cases taken
      rcases respond_given given signedIn with old | ⟨rfl, how⟩
      · exact .inl old
      · exact .inr ⟨cookie, brought, request, rfl, how⟩
    next => cases taken
  | _ =>
    left
    cases step_moved taken <;> exact given

/-- The browser has a session of the user. -/
def HasSession (state : State) (item : Nat × UserId) : Prop := ∃ session ∈ state.cookies item.1, session.userId = some item.2

theorem sessions (env : Settings) (curve : Secp256k1) (host : Host) :
    Provenance (SignIn.step env curve host) Eq HasSession fun state event item =>
      ∃ cookie ∈ state.cookies item.1, ∃ request, event = .request item.1 cookie request ∧
        Authenticates host state cookie item.2 request where
  refl _ := rfl
  trans := Eq.trans
  traced := by
    intro state event next item taken held
    obtain ⟨session, given, signedIn⟩ := held
    refine ⟨item, rfl, ?_⟩
    rcases step_given taken given signedIn with old | ⟨cookie, brought, request, asked, before | how⟩
    · exact .inl ⟨session, old, signedIn⟩
    · exact .inl ⟨cookie, brought, before⟩
    · exact .inr ⟨cookie, brought, request, asked, how⟩

/-- The request of the browser, in the state before it, signed it in as the user. By
wallet the page that showed the k1 is the browser's own. -/
inductive SignedIn (env : Settings) (curve : Secp256k1) (host : Host) (db : Db) (first : List SignIn.Event) (before : State)
    (browser : Nat) (user : UserId) : SignIn.Request → Prop where
  | password {form row} (stored : row ∈ before.db.users.rows) (account : row.id = user)
      (named : row.email = some form.identifier ∨ row.login = some form.identifier)
      (verified : host.verify form.password row.passwordHash = .ok true) :
      SignedIn env curve host db first before browser user (.loginPost form)
  | registration {salt form redirectTo} (accepted : registerCheck host before.db form = .ok (.accepted redirectTo)) :
      SignedIn env curve host db first before browser user (.registerPost user salt form)
  | wallet {redirectTo nonce number} (bound : Bound env curve host db first before browser nonce user number) :
      SignedIn env curve host db first before browser user (.lnurlRedirect redirectTo)

/-- The request that signed a browser in. -/
theorem session_occurred {events : List SignIn.Event} {final : State}
    (executed : run (SignIn.step env curve host) (SignIn.initial db) events = some final) {browser : Nat} {session : Session}
    {user : UserId} (given : session ∈ final.cookies browser) (signedIn : session.userId = some user) :
    Occurred (SignIn.step env curve host) (SignIn.initial db) events fun state event =>
      ∃ cookie ∈ state.cookies browser, ∃ request, event = .request browser cookie request ∧
        Authenticates host state cookie user request := by
  obtain ⟨source, rfl, initially | occurred⟩ :=
    (sessions env curve host).run executed (show HasSession final (browser, user) from ⟨session, given, signedIn⟩)
  · obtain ⟨empty, member, impossible⟩ := initially
    cases List.mem_singleton.mp member
    cases impossible
  · exact occurred

theorem occurred_signedIn {events : List SignIn.Event} {browser : Nat} {user : UserId}
    (fresh : Along (SignIn.step env curve host) Fresh (SignIn.initial db) events)
    (occurred : Occurred (SignIn.step env curve host) (SignIn.initial db) events fun state event =>
      ∃ cookie ∈ state.cookies browser, ∃ request, event = .request browser cookie request ∧
        Authenticates host state cookie user request) :
    ∃ first cookie request second before, events = first ++ .request browser cookie request :: second ∧
      run (SignIn.step env curve host) (SignIn.initial db) first = some before ∧
      SignedIn env curve host db first before browser user request := by
  obtain ⟨first, event, second, before, split, partway, cookie, brought, request, rfl, how⟩ := occurred
  refine ⟨first, cookie, request, second, before, split, partway, ?_⟩
  rw [split] at fresh
  cases how with
  | password stored account named verified => exact .password stored account named verified
  | registration accepted => exact .registration accepted
  | wallet signsIn =>
    obtain ⟨number, -, bound⟩ := (sound_run (fresh.append partway).1 partway).bound brought signsIn
    exact .wallet bound

/-- A browser that has a session of a user has signed in as that user. -/
theorem sessions_signedIn {events : List SignIn.Event} {final : State}
    (fresh : Along (SignIn.step env curve host) Fresh (SignIn.initial db) events)
    (executed : run (SignIn.step env curve host) (SignIn.initial db) events = some final) {browser : Nat} {session : Session}
    {user : UserId} (given : session ∈ final.cookies browser) (signedIn : session.userId = some user) :
    ∃ first cookie request second before, events = first ++ .request browser cookie request :: second ∧
      run (SignIn.step env curve host) (SignIn.initial db) first = some before ∧
      SignedIn env curve host db first before browser user request :=
  occurred_signedIn fresh (session_occurred executed given signedIn)

end runs

theorem registered_session_signedIn :
    ∃ final, run (SignIn.step {} (.answering (.ok true)) .ascii) (SignIn.initial noAccounts) registering = some final ∧
      ∃ session ∈ final.cookies 0, session.userId = some 7 ∧
        ∃ first cookie request second before, registering = first ++ .request 0 cookie request :: second ∧
          run (SignIn.step {} (.answering (.ok true)) .ascii) (SignIn.initial noAccounts) first = some before ∧
          SignedIn {} (.answering (.ok true)) .ascii noAccounts first before 0 7 request := by
  have executed : run (SignIn.step {} (.answering (.ok true)) .ascii) (SignIn.initial noAccounts)
      (registering.take 2 ++ registering.drop 2) = some _ :=
    run_append_some.mpr ⟨pageShown, pageShown_reached, run_cons_some.mpr ⟨_, registration_emits, rfl⟩⟩
  refine ⟨_, executed, _, List.mem_cons_self, rfl, ?_⟩
  apply sessions_signedIn ?_ executed List.mem_cons_self rfl
  refine .cons rfl ?_ (.cons rfl trivial (.cons registration_emits trivial (.cons rfl trivial (.cons rfl trivial trivial))))
  intro page member
  cases member

end Satoidc.Proofs.SessionOrigins
