import Satoidc.Login

/-! Where the sign-in routes send a browser. `urlsplit` and a browser disagree on
a path that starts with several slashes or a backslash, and `urlsplit` raises on
a malformed authority; on everything else the routes stay on this origin. -/

namespace Satoidc.Proofs.RedirectSafety
open Foundation

/-- A browser resolves the value on the origin it came from: without the tabs
and newlines it drops, the value starts with one slash and no second separator. -/
def SameOrigin (value : String) : Prop :=
  ∃ rest, dropTabsAndNewlines value.toList = '/' :: rest ∧ rest.head? ≠ some '/' ∧ rest.head? ≠ some '\\'

/-- A value that starts with a slash, and that browsers read with a second one in
front of an authority which `urlsplit` takes for empty, or with a backslash. -/
def Escapes (value : String) : Prop :=
  value.toList.head? = some '/' ∧ ∃ rest, dropTabsAndNewlines value.toList = '/' :: rest ∧
    (rest.head? = some '\\' ∨ ∃ more, rest = '/' :: more ∧ ∀ c, more.head? = some c → endsNetloc c = true)

/-- The values of `redirect_to` on which every route stays on this origin. -/
def Trusted (host : Host) : Option String → Prop
  | none => True
  | some text => urlsplit host.nfkc text ≠ none ∧ ¬ Escapes text

/-- A path whose first character is none that a browser drops or reads as a slash. -/
def PlainPath (value : String) : Prop :=
  ∃ first rest, value.toList = '/' :: first :: rest ∧ isTabOrNewline first = false ∧ first ≠ '/' ∧ first ≠ '\\'

theorem PlainPath.append {front : String} (plain : PlainPath front) (back : String) : PlainPath (front ++ back) := by
  obtain ⟨first, rest, chars, kept, slash, backslash⟩ := plain
  exact ⟨first, rest ++ back.toList, by rw [String.toList_append, chars]; rfl, kept, slash, backslash⟩

theorem PlainPath.sameOrigin {value : String} (plain : PlainPath value) : SameOrigin value := by
  obtain ⟨first, rest, chars, kept, slash, backslash⟩ := plain
  refine ⟨first :: dropTabsAndNewlines rest, ?_, by simpa using slash, by simpa using backslash⟩
  rw [chars, dropTabsAndNewlines_cons rfl, dropTabsAndNewlines_cons kept]

theorem sameOrigin_root : SameOrigin "/" := ⟨[], rfl, by decide, by decide⟩

section slash
variable {nfkc : String → String} {text : String} {parsed : SplitResult}

theorem dropTabs_slash (slash : text.toList.head? = some '/') :
    ∃ rest, dropTabsAndNewlines text.toList = '/' :: rest ∧
      dropTabsAndNewlines (text.toList.dropWhile isC0ControlOrSpace) = '/' :: rest := by
  obtain ⟨tail, chars⟩ : ∃ tail, text.toList = '/' :: tail := by
    cases chars : text.toList with
    | nil => rw [chars] at slash; cases slash
    | cons first tail => rw [chars] at slash; cases slash; exact ⟨tail, rfl⟩
  refine ⟨dropTabsAndNewlines tail, ?_, ?_⟩
  · rw [chars, dropTabsAndNewlines_cons rfl]
  · rw [chars, List.dropWhile_cons_of_neg (by decide), dropTabsAndNewlines_cons rfl]

theorem splitScheme_slash (rest : List Char) : splitScheme ('/' :: rest) = ([], '/' :: rest) := by
  have before : ('/' :: rest).takeWhile (fun c => c ≠ ':') = '/' :: rest.takeWhile fun c => c ≠ ':' := rfl
  unfold splitScheme
  rw [before]
  dsimp only
  split
  next first _ _ same _ => cases same; rfl
  next => rfl

/-- What `urlsplit` makes of a path: no scheme, and the authority that two slashes
in front would introduce. -/
theorem urlsplit_slash {rest : List Char}
    (chars : dropTabsAndNewlines (text.toList.dropWhile isC0ControlOrSpace) = '/' :: rest)
    (split : urlsplit nfkc text = some parsed) :
    parsed.scheme = "" ∧ parsed.netloc = String.ofList (splitNetloc ('/' :: rest)).1 := by
  simp only [urlsplit, chars, splitScheme_slash] at split
  split at split
  next => cases split; exact ⟨rfl, rfl⟩
  next => cases split

end slash

theorem safeRedirect_some {host : Host} {text : String} {parsed : SplitResult} (split : urlsplit host.nfkc text = some parsed) :
    ∃ value, safeRedirect host (some text) = .ok value ∧
      (value = "/" ∨ value = text ∧ text.toList.head? = some '/' ∧ parsed.netloc = "") := by
  simp only [safeRedirect, split]
  split_ifs with empty elsewhere relative
  · exact ⟨_, rfl, .inl rfl⟩
  · exact ⟨_, rfl, .inl rfl⟩
  · exact ⟨_, rfl, .inl rfl⟩
  · exact ⟨_, rfl, .inr ⟨rfl, not_not.mp relative, not_not.mp (not_or.mp elsewhere).2⟩⟩

/-- The value a check returns stays on this origin unless the input escapes. -/
theorem safeRedirect_sameOrigin {host : Host} {redirectTo : Option String} (trusted : Trusted host redirectTo) :
    ∃ value, safeRedirect host redirectTo = .ok value ∧ SameOrigin value := by
  cases redirectTo with
  | none => exact ⟨_, rfl, sameOrigin_root⟩
  | some text =>
    obtain ⟨parsed, split⟩ := Option.ne_none_iff_exists'.mp trusted.1
    obtain ⟨value, returned, rfl | ⟨rfl, slash, netloc⟩⟩ := safeRedirect_some split
    · exact ⟨_, returned, sameOrigin_root⟩
    refine ⟨_, returned, ?_⟩
    obtain ⟨rest, chars, cleaned⟩ := dropTabs_slash slash
    have read := (urlsplit_slash cleaned split).2
    have stays : ¬ (rest.head? = some '\\' ∨ ∃ more, rest = '/' :: more ∧ ∀ c, more.head? = some c → endsNetloc c = true) :=
      fun escapes => trusted.2 ⟨slash, rest, chars, escapes⟩
    refine ⟨rest, chars, ?_, fun backslash => stays (.inl backslash)⟩
    intro again
    obtain ⟨more, rfl⟩ : ∃ more, rest = '/' :: more := by
      cases rest with
      | nil => cases again
      | cons first more => cases again; exact ⟨more, rfl⟩
    refine stays (.inr ⟨more, rfl, ?_⟩)
    intro c head
    cases more with
    | nil => cases head
    | cons first more =>
      cases head
      by_contra open'
      rw [netloc] at read
      simp [splitNetloc, open'] at read

theorem escapes_not_sameOrigin {value : String} (escapes : Escapes value) : ¬ SameOrigin value := by
  rintro ⟨rest, chars, slash, backslash⟩
  obtain ⟨-, other, same, ways⟩ := escapes
  cases chars.symm.trans same
  rcases ways with head | ⟨more, rfl, -⟩
  · exact backslash head
  · exact slash rfl

/-- The authority in front of an escaping value is empty to `urlsplit`. -/
theorem escapes_netloc {rest : List Char} (ways : rest.head? = some '\\' ∨
    ∃ more, rest = '/' :: more ∧ ∀ c, more.head? = some c → endsNetloc c = true) : (splitNetloc ('/' :: rest)).1 = [] := by
  rcases ways with head | ⟨more, rfl, boundary⟩
  · cases rest with
    | nil => cases head
    | cons first tail => cases head; rfl
  · cases more with
    | nil => rfl
    | cons first tail => simp [splitNetloc, boundary first rfl]

theorem safeRedirect_escapes {host : Host} {text : String} (escapes : Escapes text)
    (accepted : urlsplit host.nfkc text ≠ none) : safeRedirect host (some text) = .ok text := by
  obtain ⟨parsed, split⟩ := Option.ne_none_iff_exists'.mp accepted
  obtain ⟨slash, rest, chars, ways⟩ := escapes
  obtain ⟨other, same, cleaned⟩ := dropTabs_slash slash
  cases chars.symm.trans same
  obtain ⟨scheme, netloc⟩ := urlsplit_slash cleaned split
  rw [escapes_netloc ways] at netloc
  have nonempty : text ≠ "" := by rintro rfl; cases slash
  simp [safeRedirect, split, scheme, netloc, slash, nonempty]

theorem urlsplit_empty (nfkc : String → String) : urlsplit nfkc "" ≠ none := Option.some_ne_none _

/-- With this `redirect_to` the check returns, and every redirect of every route
that uses it stays on this origin. -/
structure StaysHome (host : Host) (redirectTo : Option String) : Prop where
  returns : ∃ value, safeRedirect host redirectTo = .ok value
  login : ∀ (db : Db) (session : Session) (form : LoginForm), form.redirectTo = redirectTo →
    ∀ location, (loginPost host db session form).2 = .ok location → SameOrigin location
  register : ∀ (uuid : UserId) (salt : Nat) (db : Db) (session : Session) (form : RegisterForm),
    form.redirectTo = redirectTo →
    ∀ location, (registerPost host uuid salt db session form).2.2 = .ok location → SameOrigin location
  registerError : ∀ err location, registerRedirect host err redirectTo = .ok location → SameOrigin location
  lnurl : ∀ (storage : String → Option UserId) (session : Session) (result),
    lnurlRedirect host storage session redirectTo = .ok result → SameOrigin result.2.2

theorem login_error (query : String) : SameOrigin ("/login?err=" ++ query) :=
  PlainPath.sameOrigin (.append ⟨'l', _, rfl, rfl, by decide, by decide⟩ query)

theorem registerRedirect_sameOrigin {host : Host} {err : String} {redirectTo : Option String} {location : String}
    (redirected : registerRedirect host err redirectTo = .ok location) : SameOrigin location := by
  unfold registerRedirect at redirected
  cases checked : safeRedirect host redirectTo with
  | error raised => rw [checked] at redirected; cases redirected
  | ok value =>
    rw [checked] at redirected
    cases redirected
    have start : PlainPath "/register?err=" := ⟨'r', _, rfl, rfl, by decide, by decide⟩
    exact PlainPath.sameOrigin (.append (.append (.append start err) _) _)

theorem loginPost_sameOrigin {host : Host} {db : Db} {session : Session} {form : LoginForm} {value location : String}
    (checked : safeRedirect host form.redirectTo = .ok value) (home : SameOrigin value)
    (redirected : (loginPost host db session form).2 = .ok location) : SameOrigin location := by
  simp only [loginPost, checked] at redirected
  split at redirected
  next => cases redirected; exact login_error "bad_flow"
  next =>
    split at redirected
    next => cases redirected; exact login_error ("invalid&redirect_to=" ++ quote value)
    next =>
      split at redirected
      next => cases redirected
      next => cases redirected; exact login_error ("invalid&redirect_to=" ++ quote value)
      next => cases redirected; exact home

theorem registerPost_sameOrigin {host : Host} {uuid : UserId} {salt : Nat} {db : Db} {session : Session} {form : RegisterForm}
    {value location : String} (checked : safeRedirect host form.redirectTo = .ok value) (home : SameOrigin value)
    (redirected : (registerPost host uuid salt db session form).2.2 = .ok location) : SameOrigin location := by
  unfold registerPost at redirected
  split at redirected
  next => cases redirected
  next => exact registerRedirect_sameOrigin redirected
  next target accepted =>
    split at redirected
    next => cases redirected
    next =>
      cases redirected
      simp only [registerCheck, checked, Bind.bind, Except.bind] at accepted
      split_ifs at accepted <;> cases accepted
      exact home

/-- Every route stays on this origin exactly for the values that `urlsplit`
accepts and that do not escape. -/
theorem stays_home_iff (host : Host) (redirectTo : Option String) :
    StaysHome host redirectTo ↔ Trusted host redirectTo := by
  constructor
  · intro home
    cases redirectTo with
    | none => trivial
    | some text =>
      have accepted : urlsplit host.nfkc text ≠ none := by
        intro rejected
        obtain ⟨value, returned⟩ := home.returns
        by_cases empty : text = ""
        · subst empty
          exact urlsplit_empty _ rejected
        · simp [safeRedirect, empty, rejected] at returned
      refine ⟨accepted, fun escapes => escapes_not_sameOrigin escapes ?_⟩
      have redirected : lnurlRedirect host (fun _ => none) {} (some text) = .ok (fun _ => none, {}, text) := by
        rw [lnurlRedirect, safeRedirect_escapes escapes accepted]
        rfl
      exact home.lnurl _ _ _ redirected
  · intro trusted
    obtain ⟨value, checked, home⟩ := safeRedirect_sameOrigin trusted
    refine ⟨⟨value, checked⟩, ?_, ?_, fun err location => registerRedirect_sameOrigin, ?_⟩
    · rintro db session form rfl location redirected
      exact loginPost_sameOrigin checked home redirected
    · rintro uuid salt db session form rfl location redirected
      exact registerPost_sameOrigin checked home redirected
    · intro storage session result redirected
      simp only [lnurlRedirect, checked, Bind.bind, Except.bind] at redirected
      split at redirected <;> cases redirected <;> exact home

def oneLogin : Db where
  users :=
    ⟨[{ id := 1, lnurlPubkey := none, email := none, login := some "alice1",
        passwordHash := some "0$Secret-42", nickname := "Satoshi" }], by decide⟩
  challenges := ⟨[], List.nodup_nil⟩

/-- A password login that continues at three slashes, and an authority that is not
one. -/
theorem login_leaves :
    (loginPost .ascii oneLogin { loginNonce := some "n" }
        ⟨"alice1", "Secret-42", some "///evil.com", some "n"⟩).2 = .ok "///evil.com" ∧
      ¬ StaysHome .ascii (some "///evil.com") ∧ safeRedirect .ascii (some "//[") = .error .invalidUrl := by
  have escapes : Escapes "///evil.com" :=
    ⟨rfl, _, rfl, .inr ⟨_, rfl, fun c head => (by cases head; rfl)⟩⟩
  exact ⟨by decide, fun home => ((stays_home_iff _ _).mp home).2 escapes, by decide⟩

end Satoidc.Proofs.RedirectSafety
