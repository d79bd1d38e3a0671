import Satoidc.Foundation.Provenance
import Satoidc.Proofs.SignInMethods
import Satoidc.Proofs.WalletChanges

/-! Who changes accounts. A page changes the account it was opened for, in the column of
its action, and another wallet comes in only by a signature for a k1 that a profile page
of the account itself has shown. -/

namespace Satoidc.Proofs.AccountOwners
open Foundation Accounts CallbackEffects UserChanges

/-- What is traced: a page of a user, and a pending or used link k1 of a user. -/
inductive Item where
  | page (page : Nat) (userId : UserId)
  | link (k1 : String) (userId : UserId) (createdAt : Instant)

def Holds (state : State) : Item → Prop
  | .page page userId => ∃ user, state.pages page = some user ∧ user.id = userId
  | .link k1 userId createdAt => ∃ row ∈ state.db.challenges.rows,
      row.k1 = k1 ∧ row.action = "link" ∧ row.userId = some userId ∧ row.createdAt = createdAt

def Causes (state : State) (operation : Operation) : Item → Prop
  | .page page userId => operation = .openProfile page userId
  | .link k1 userId createdAt => ∃ page, operation = .issueLink page k1 createdAt ∧ Holds state (.page page userId)

section step
variable {env : Settings} {curve : Secp256k1} {host : Host} {state next : State} {operation : Operation} {user : User}

theorem edit_id {db : Db} {page : Nat} {updated : User} (edit : Edit host db page user operation updated) :
    updated.id = user.id := by
  cases edit <;> rfl

theorem commit_challenges {db after : Db} {loaded updated shown : User} {message told : String}
    (committed : Profile.commit db loaded updated message = .notified after shown told) : after.challenges = db.challenges := by
  unfold Profile.commit at committed
  split at committed
  next => cases committed
  next => cases committed; rfl

/-- An action of a page neither hands the page to another user nor touches a challenge. -/
structure Stays (state next : State) : Prop where
  pages : ∀ page userId, Holds next (.page page userId) → Holds state (.page page userId)
  challenges : next.db.challenges = state.db.challenges

theorem raised_stays (state : State) (page : Nat) (error : PyError) : Stays state (saved state page (.raised error)) := by
  cases error with
  | integrityError =>
    refine ⟨?_, rfl⟩
    intro other userId shown
    obtain ⟨later, found, same⟩ := shown
    by_cases here : other = page
    · subst here
      cases (Function.update_self ..).symm.trans found
    · exact ⟨later, (Function.update_of_ne here ..).symm.trans found, same⟩
  | _ => exact ⟨fun _ _ shown => shown, rfl⟩

theorem notified_stays {page : Nat} {db : Db} {later : User} {message : String} (shown : state.pages page = some user)
    (same : later.id = user.id) (challenges : db.challenges = state.db.challenges) :
    Stays state (saved state page (.notified db later message)) := by
  refine ⟨?_, challenges⟩
  intro other userId held
  obtain ⟨found, stands, named⟩ := held
  by_cases here : other = page
  · subst here
    cases (Function.update_self ..).symm.trans stands
    exact ⟨user, shown, same.symm.trans named⟩
  · exact ⟨found, (Function.update_of_ne here ..).symm.trans stands, named⟩

theorem saved_stays {page : Nat} {result : Profile.Saved} (shown : state.pages page = some user)
    (acts : Acts host state.db page user operation result) : Stays state (saved state page result) := by
  cases acts with
  | told message => exact notified_stays shown rfl rfl
  | raised error => exact raised_stays state page error
  | @commits updated message edit =>
    cases committed : Profile.commit state.db user updated message with
    | raised error => exact raised_stays state page error
    | notified after later told =>
      obtain ⟨rfl, -⟩ := commit_notified committed
      exact notified_stays shown (edit_id edit) (commit_challenges committed)

theorem onPage_stays {page : Nat} {action : User → Profile.Saved}
    (acts : ∀ user, Acts host state.db page user operation (action user))
    (taken : onPage state page action = some next) : Stays state next := by
  obtain ⟨user, shown, rfl⟩ := Option.map_eq_some_iff.mp taken
  exact saved_stays shown (acts user)

theorem addChallenge_rows {db after : Db} {challenge : LnurlAuthChallenge} (added : addChallenge db challenge = some after) :
    after.challenges.rows = db.challenges.rows ++ [challenge] := by
  unfold addChallenge at added
  obtain ⟨challenges, stored, rfl⟩ := Option.map_eq_some_iff.mp added
  exact Table.store_some.mp stored

/-- A callback with another action has not consumed a link row. -/
theorem other_action {now : Instant} {db : Db} {query : LnurlAuthCallbackIn} {challenge : LnurlAuthChallenge}
    (admits : WalletChanges.Admits env curve now db query challenge)
    (action : query.action = some .register ∨ query.action = some .login) : challenge.action ≠ "link" := by
  intro linked
  have same := admits.action
  rw [linked] at same
  rcases action with asked | asked
  all_goals
    rw [asked] at same
    exact absurd (Option.some.inj same) (by decide)

/-- A callback writes a link row back with the user that it records. -/
theorem callback_links {uuid : UserId} {query : LnurlAuthCallbackIn} {now : Instant} {db : Db} {row : LnurlAuthChallenge}
    (stored : row ∈ (lnurlAuthCallback env curve now uuid db query).1.challenges.rows) (link : row.action = "link") :
    ∃ old ∈ db.challenges.rows, old.k1 = row.k1 ∧ old.action = row.action ∧ old.userId = row.userId ∧
      old.createdAt = row.createdAt := by
  have written : ∀ {users : Users} {challenge : LnurlAuthChallenge}, row ∈ (db.writeChallenge users challenge).challenges.rows →
      (∀ old ∈ db.challenges.rows, old.k1 = challenge.k1 → old.action = "link" → old.userId = challenge.userId) →
      ∃ old ∈ db.challenges.rows, old.k1 = row.k1 ∧ old.action = row.action ∧ old.userId = row.userId ∧
        old.createdAt = row.createdAt := by
    intro users challenge inside recorded
    obtain ⟨old, member, becomes⟩ := mem_update.mp inside
    split at becomes
    next hit => subst becomes; exact ⟨old, member, rfl, rfl, recorded old member hit link, rfl⟩
    next => subst becomes; exact ⟨old, member, rfl, rfl, rfl, rfl⟩
  have effect : Effect env curve now uuid db query (lnurlAuthCallback env curve now uuid db query) := callback_effect
  generalize lnurlAuthCallback env curve now uuid db query = result at effect stored
  cases effect with
  | idle => exact ⟨row, stored, rfl, rfl, rfl, rfl⟩
  | @registers challenge users verified action =>
    obtain ⟨live, admits, rfl⟩ := WalletChanges.verified_admits verified
    apply written stored
    intro old member same linked
    cases db.challenges.valid.unique member admits.stored same
    exact absurd linked (other_action admits (.inl action))
  | @binds challenge user verified action =>
    obtain ⟨live, admits, rfl⟩ := WalletChanges.verified_admits verified
    apply written stored
    intro old member same linked
    cases db.challenges.valid.unique member admits.stored same
    exact absurd linked (other_action admits action)
  | @links challenge user users verified =>
    obtain ⟨live, admits, rfl⟩ := WalletChanges.verified_admits verified
    apply written stored
    intro old member same linked
    cases db.challenges.valid.unique member admits.stored same
    rfl

theorem register_challenges {uuid : UserId} {salt : Nat} {session : Session} {form : RegisterForm} {db : Db} :
    (registerPost host uuid salt db session form).1.challenges = db.challenges := by
  unfold registerPost
  split
  · rfl
  · rfl
  · split <;> rfl

/-- A page is shown to a user that it was opened for, and a link row is that of the
page that issued it. -/
theorem step_traced (taken : step env curve host state operation = some next) {item : Item} (held : Holds next item) :
    Holds state item ∨ Causes state operation item := by
  have stays : Stays state next → Holds state item ∨ Causes state operation item := by
    intro stays
    left
    cases item with
    | page page userId => exact stays.pages page userId held
    | link k1 userId createdAt =>
      rw [Holds, stays.challenges] at held
      exact held
  cases operation with
  | register uuid salt session form =>
    cases taken
    exact stays ⟨fun _ _ shown => shown, register_challenges⟩
  | callback uuid query now =>
    cases taken
    left
    cases item with
    | page page userId => exact held
    | link k1 userId createdAt =>
      obtain ⟨row, stored, named, link, user, created⟩ := held
      obtain ⟨old, member, sameK1, sameAction, sameUser, sameCreated⟩ := callback_links stored link
      exact ⟨old, member, sameK1.trans named, sameAction.trans link, sameUser.trans user, sameCreated.trans created⟩
  | issue k1 action now =>
    obtain ⟨after, added, rfl⟩ := Option.map_eq_some_iff.mp taken
    left
    cases item with
    | page page userId => exact held
    | link k1 userId createdAt =>
      obtain ⟨row, stored, named, link, user, created⟩ := held
      rw [addChallenge_rows added, List.mem_append, List.mem_singleton] at stored
      rcases stored with member | rfl
      · exact ⟨row, member, named, link, user, created⟩
      · cases user
  | issueLink page k1 now =>
    simp only [step, Option.bind_eq_bind, Option.bind_eq_some_iff, Option.some.injEq] at taken
    obtain ⟨user, shown, after, added, rfl⟩ := taken
    cases item with
    | page page userId => exact .inl held
    | link k1 userId createdAt =>
      obtain ⟨row, stored, named, link, recorded, created⟩ := held
      rw [addChallenge_rows added, List.mem_append, List.mem_singleton] at stored
      rcases stored with member | rfl
      · exact .inl ⟨row, member, named, link, recorded, created⟩
      · cases named
        cases created
        exact .inr ⟨page, rfl, user, shown, Option.some.inj recorded⟩
  | openProfile page userId =>
    obtain ⟨user, found, rfl⟩ := Option.map_eq_some_iff.mp taken
    cases item with
    | link k1 userId createdAt => exact .inl held
    | page other owner =>
      obtain ⟨later, shown, same⟩ := held
      by_cases here : other = page
      · subst here
        cases (Function.update_self ..).symm.trans shown
        right
        rw [Causes, ← same, (mem_of_lookup found).2]
      · exact .inl ⟨later, (Function.update_of_ne here ..).symm.trans shown, same⟩
  | nickname page raw => exact stays (onPage_stays (fun user => @nickname_acts host user _ page raw) taken)
  | email page raw => exact stays (onPage_stays (fun user => email_acts page raw) taken)
  | password page salt form => exact stays (onPage_stays (fun user => password_acts page salt form) taken)
  | unlink page => exact stays (onPage_stays (fun user => @unlink_acts host user _ page) taken)

/-- The one column that an action of a page sets. -/
inductive Sets (host : Host) (page : Nat) (user : User) : Operation → User → Prop where
  | nickname {raw} (nickname : String) : Sets host page user (.nickname page raw) { user with nickname }
  | email {raw} : Sets host page user (.email page raw) { user with email := some (host.lower (stripped raw)) }
  | password {salt form} :
      Sets host page user (.password page salt form) { user with passwordHash := some (host.hash salt form.newPassword) }
  | wallet : Sets host page user (.unlink page) { user with lnurlPubkey := none }

/-- A column that the page's user already has is not written. -/
theorem edit_sets {db : Db} {page : Nat} {shown set : User} (edit : Edit host db page shown operation set) (stored : User) :
    shown.flush set stored = stored ∨ Sets host page stored operation (shown.flush set stored) := by
  cases edit with
  | nickname value =>
    simp only [User.flush, writeColumn_unchanged]
    exact .inr (.nickname _)
  | email valid unused =>
    simp only [User.flush, writeColumn_unchanged]
    rcases writeColumn_cases shown.email _ stored.email with kept | written
    · rw [kept]
      exact .inl rfl
    · rw [written]
      exact .inr .email
  | password strong =>
    simp only [User.flush, writeColumn_unchanged]
    rcases writeColumn_cases shown.passwordHash _ stored.passwordHash with kept | written
    · rw [kept]
      exact .inl rfl
    · rw [written]
      exact .inr .password
  | wallet password =>
    simp only [User.flush, writeColumn_unchanged]
    rcases writeColumn_cases shown.lnurlPubkey none stored.lnurlPubkey with kept | written
    · rw [kept]
      exact .inl rfl
    · rw [written]
      exact .inr .wallet

/-- The two ways a stored account changes. -/
theorem account_changed (taken : step env curve host state operation = some next) {updated : User}
    (stored : user ∈ state.db.users.rows) (later : updated ∈ next.db.users.rows) (same : updated.id = user.id)
    (changed : updated ≠ user) :
    (∃ page shown, state.pages page = some shown ∧ shown.id = user.id ∧ Sets host page user operation updated) ∨
      ∃ uuid query now challenge, operation = .callback uuid query now ∧ query.action = some .link ∧
        WalletChanges.Admits env curve now state.db query challenge ∧ challenge.userId = some user.id ∧
        updated = { user with lnurlPubkey := some query.key } := by
  have unchanged : user ∉ next.db.users.rows := fun kept => changed (next.db.users.valid.id.unique later kept same)
  have change := step_change taken
  generalize rows : next.db.users.rows = after at change later unchanged
  cases change with
  | same => exact absurd stored unchanged
  | registers | inserts => exact absurd (List.mem_append_left _ stored) unchanged
  | @links uuid query now =>
    cases taken
    right
    have account := @WalletChanges.callback_account env curve now uuid state.db query
    rcases account.change.keeps stored with kept | ⟨links, linked⟩
    · exact absurd (rows ▸ kept) unchanged
    · obtain ⟨challenge, admits, recorded⟩ := account.links _ links
      rw [← rows] at later
      have equal := (lnurlAuthCallback env curve now uuid state.db query).1.users.valid.id.unique later linked same
      exact ⟨uuid, query, now, challenge, rfl, links.action, admits, recorded, equal⟩
  | @edits _ page shown set shows edit =>
    obtain ⟨old, member, becomes⟩ := mem_update.mp later
    split at becomes
    next hit =>
      have sameId : old.id = user.id := by rw [← same, ← becomes, User.flush_id]
      obtain rfl := state.db.users.valid.id.unique member stored sameId
      subst becomes
      exact .inl ⟨page, shown, shows, hit.symm, (edit_sets edit old).resolve_left changed⟩
    next =>
      subst becomes
      exact absurd (state.db.users.valid.id.unique member stored same) changed

end step

section runs
variable {env : Settings} {curve : Secp256k1} {host : Host}

theorem provenance (env : Settings) (curve : Secp256k1) (host : Host) : Provenance (step env curve host) Eq Holds Causes where
  refl _ := rfl
  trans := Eq.trans
  traced _ _ _ item taken held := ⟨item, rfl, step_traced taken held⟩

/-- A profile page was opened for the user before. -/
def Opened (env : Settings) (curve : Secp256k1) (host : Host) (past : List Operation) (page : Nat) (userId : UserId) : Prop :=
  Occurred (step env curve host) initial past fun _ operation => operation = .openProfile page userId

/-- A profile page that had been opened for the user has shown the k1. -/
def Shown (env : Settings) (curve : Secp256k1) (host : Host) (past : List Operation) (k1 : String) (userId : UserId)
    (createdAt : Instant) : Prop :=
  ∃ page first second, past = first ++ .issueLink page k1 createdAt :: second ∧ Opened env curve host first page userId

variable {past : List Operation} {state : State}

theorem page_opened (executed : run (step env curve host) initial past = some state) {page : Nat} {userId : UserId}
    (shown : Holds state (.page page userId)) : Opened env curve host past page userId := by
  obtain ⟨_, rfl, first | occurred⟩ := (provenance env curve host).run executed shown
  · obtain ⟨user, impossible, -⟩ := first
    cases impossible
  · exact occurred

theorem link_shown (executed : run (step env curve host) initial past = some state) {k1 : String} {userId : UserId}
    {createdAt : Instant} (pending : Holds state (.link k1 userId createdAt)) :
    Shown env curve host past k1 userId createdAt := by
  obtain ⟨_, rfl, first | occurred⟩ := (provenance env curve host).run executed pending
  · obtain ⟨row, impossible, -⟩ := first
    cases impossible
  · obtain ⟨before, operation, after, reached, split, partway, page, rfl, shown⟩ := occurred
    exact ⟨page, before, after, split, page_opened partway shown⟩

/-- The grounds on which a stored account changes. -/
inductive Grounds (env : Settings) (curve : Secp256k1) (host : Host) (past : List Operation) (user : User) :
    Operation → User → Prop where
  | page {page operation updated} (opened : Opened env curve host past page user.id)
    (sets : Sets host page user operation updated) :
      Grounds env curve host past user operation updated
  | link {uuid query now createdAt} (action : query.action = some .link)
      (signature : verify curve query.k1 query.key query.sig = .ok true)
      (recent : now - seconds env.lnurlK1TtlSeconds ≤ createdAt)
      (shown : Shown env curve host past query.k1 user.id createdAt) :
      Grounds env curve host past user (.callback uuid query now) { user with lnurlPubkey := some query.key }

/-- A stored account changes only in the one column that a page opened for it sets, or
takes the wallet that has signed a recent k1 of such a page. -/
theorem account_grounds (executed : run (step env curve host) initial past = some state) {operation : Operation} {next : State}
    (taken : step env curve host state operation = some next) {user updated : User} (stored : user ∈ state.db.users.rows)
    (later : updated ∈ next.db.users.rows) (same : updated.id = user.id) (changed : updated ≠ user) :
    Grounds env curve host past user operation updated := by
  rcases account_changed taken stored later same changed with
    ⟨page, shown, shows, own, sets⟩ | ⟨uuid, query, now, challenge, rfl, action, admits, recorded, rfl⟩
  · exact .page (page_opened executed ⟨shown, shows, own⟩) sets
  · have link : challenge.action = "link" := by
      have matched := admits.action
      rw [action] at matched
      exact Option.some.inj matched
    refine .link action admits.signature admits.recent (link_shown executed ?_)
    exact ⟨challenge, admits.stored, admits.k1, link, recorded, rfl⟩

end runs

def relinkQuery : LnurlAuthCallbackIn where
  k1 := "c6c6c6c6c6c6c6c6c6c6c6c6c6c6c6c6c6c6c6c6c6c6c6c6c6c6c6c6c6c6c6c6"
  sig := "00000000000000c6"
  key := "0200000000000000000000000000000000000000000000000000000000000000c6"
  action := some .link
  k1Length := String.length_ofList
  sigLength := by decide
  keyLength := String.length_ofList

/-- A wallet account takes another wallet, whose k1 its own page has shown. -/
def shownLink : List Operation :=
  [.issue SignInMethods.registerQuery.k1 .register 0, .callback 7 SignInMethods.registerQuery 0, .openProfile 0 7,
    .issueLink 0 relinkQuery.k1 0]

/-- The account's page shows a link challenge. -/
def linkIssued : State where
  db :=
    ⟨SignInMethods.walletRegistered.db.users,
      ⟨SignInMethods.walletRegistered.db.challenges.rows ++
          [{ k1 := relinkQuery.k1, userId := some 7, action := "link", createdAt := 0 }], by decide⟩⟩
  pages := Function.update SignInMethods.walletRegistered.pages 0 (some (walletUser 7 SignInMethods.registerQuery.key))

theorem shownLink_reached : run (step {} (.answering (.ok true)) .ascii) initial shownLink = some linkIssued :=
  run_cons_some.mpr ⟨_, rfl, run_cons_some.mpr ⟨_, SignInMethods.registerQuery_registers, rfl⟩⟩

def relinked : State where
  db :=
    ⟨⟨[walletUser 7 relinkQuery.key], by decide⟩,
      ⟨SignInMethods.walletRegistered.db.challenges.rows ++
          [{ k1 := relinkQuery.k1, userId := some 7, action := "link", consumed := true, createdAt := 0 }], by decide⟩⟩
  pages := linkIssued.pages

theorem relinkQuery_links :
    step {} (.answering (.ok true)) .ascii linkIssued (.callback 8 relinkQuery 1) = some relinked :=
  Eq.trans (step_verified ⟨rfl, rfl, verify_answering rfl rfl rfl⟩) rfl

theorem relinked_grounds :
    ∃ state next, run (step {} (.answering (.ok true)) .ascii) initial shownLink = some state ∧
      step {} (.answering (.ok true)) .ascii state (.callback 8 relinkQuery 1) = some next ∧
      next.db.users.rows.map User.lnurlPubkey = [some relinkQuery.key] ∧
      Grounds {} (.answering (.ok true)) .ascii shownLink (walletUser 7 SignInMethods.registerQuery.key)
        (.callback 8 relinkQuery 1)
        (walletUser 7 relinkQuery.key) := by
  refine ⟨linkIssued, relinked, shownLink_reached, relinkQuery_links, rfl, ?_⟩
  exact @account_grounds {} (.answering (.ok true)) .ascii shownLink _ shownLink_reached (.callback 8 relinkQuery 1) _
    relinkQuery_links (walletUser 7 SignInMethods.registerQuery.key) (walletUser 7 relinkQuery.key) List.mem_cons_self
      List.mem_cons_self rfl (by decide)

end Satoidc.Proofs.AccountOwners
