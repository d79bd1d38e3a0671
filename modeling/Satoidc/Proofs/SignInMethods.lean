import Satoidc.Foundation.Runs
import Satoidc.Proofs.UserChanges

/-! Every account keeps a way to sign in. Registration, wallets and the profile
page only ever add to what an account has, except for unlinking, whose guard asks
for a password and not for a name to enter with it. -/

namespace Satoidc.Proofs.SignInMethods
open Foundation Accounts UserChanges

/-- A wallet, or a password with an email or a login to enter it under. -/
def Usable (user : User) : Prop :=
  user.lnurlPubkey ≠ none ∨ user.passwordHash ≠ none ∧ (user.email ≠ none ∨ user.login ≠ none)

def EveryoneUsable (state : State) : Prop := ∀ user ∈ state.db.users.rows, Usable user

/-- The guard on a whole run: a page that unlinks a wallet belongs to an account
with an email or a login. -/
def Recoverable (state : State) : Operation → Prop
  | .unlink page => ∀ user, state.pages page = some user → truthy user.passwordHash → user.lnurlPubkey ≠ none →
      ∀ stored ∈ state.db.users.rows, stored.id = user.id → stored.email ≠ none ∨ stored.login ≠ none
  | _ => True

structure Keeps (row later : User) : Prop where
  id : later.id = row.id
  email : row.email ≠ none → later.email ≠ none
  login : row.login ≠ none → later.login ≠ none
  password : row.passwordHash ≠ none → later.passwordHash ≠ none

theorem Keeps.refl (row : User) : Keeps row row :=
  ⟨rfl, fun held => held, fun held => held, fun held => held⟩

theorem Keeps.usable {row later : User} (keeps : Keeps row later) (wallet : row.lnurlPubkey ≠ none → later.lnurlPubkey ≠ none)
    (usable : Usable row) : Usable later := by
  rcases usable with held | ⟨password, email | login⟩
  · exact .inl (wallet held)
  · exact .inr ⟨keeps.password password, .inl (keeps.email email)⟩
  · exact .inr ⟨keeps.password password, .inr (keeps.login login)⟩

/-- What an operation does to the users: no row loses an email, a login or a
password, new rows are usable, and only rows in `unlinked` lose their wallet. -/
structure Evolves (unlinked : User → Prop) (before after : Db) : Prop where
  goes : ∀ row ∈ before.users.rows, ∃ later ∈ after.users.rows, Keeps row later
  comes : ∀ later ∈ after.users.rows, Usable later ∨ ∃ row ∈ before.users.rows, Keeps row later ∧
    (unlinked row ∨ (row.lnurlPubkey ≠ none → later.lnurlPubkey ≠ none))

section evolves
variable {unlinked : User → Prop} {before after : Db} {row : User}

theorem Evolves.same (rows : after.users.rows = before.users.rows) : Evolves unlinked before after := by
  refine ⟨fun row member => ⟨row, by rw [rows]; exact member, .refl row⟩, ?_⟩
  intro later member
  exact .inr ⟨later, rows ▸ member, .refl later, .inr id⟩

theorem Evolves.insert (usable : Usable row) (rows : after.users.rows = before.users.rows ++ [row]) :
    Evolves unlinked before after := by
  refine ⟨fun old member => ⟨old, by rw [rows]; exact List.mem_append_left _ member, .refl old⟩, ?_⟩
  intro later member
  rw [rows, List.mem_append, List.mem_singleton] at member
  rcases member with old | rfl
  · exact .inr ⟨later, old, .refl later, .inr id⟩
  · exact .inl usable

theorem Evolves.update {selected : User → Prop} [DecidablePred selected] {change : User → User}
    (keeps : ∀ row, Keeps row (change row))
    (wallet : ∀ row, selected row → unlinked row ∨ (row.lnurlPubkey ≠ none → (change row).lnurlPubkey ≠ none))
    (rows : after.users.rows = update selected change before.users.rows) : Evolves unlinked before after := by
  constructor
  · intro row member
    by_cases hit : selected row
    · exact ⟨change row, by rw [rows]; exact mem_update_of_selected member hit, keeps row⟩
    · exact ⟨row, by rw [rows]; exact mem_update_of_not_selected member hit, .refl row⟩
  · intro later member
    rw [rows] at member
    obtain ⟨row, old, same⟩ := mem_update.mp member
    right
    by_cases hit : selected row
    · rw [if_pos hit] at same
      subst same
      exact ⟨row, old, keeps row, wallet row hit⟩
    · rw [if_neg hit] at same
      subst same
      exact ⟨row, old, .refl row, .inr id⟩

end evolves

theorem writeColumn_some {α : Type} [DecidableEq α] {loaded updated stored : Option α}
    (changed : updated = loaded ∨ updated ≠ none) (held : stored ≠ none) : writeColumn loaded updated stored ≠ none := by
  unfold writeColumn
  split
  next => exact held
  next different => exact changed.resolve_left different

/-- A page action stays with its user, and the columns it sets are set to a value. -/
structure Sets (loaded updated : User) : Prop where
  id : updated.id = loaded.id
  email : updated.email = loaded.email ∨ updated.email ≠ none
  login : updated.login = loaded.login ∨ updated.login ≠ none
  password : updated.passwordHash = loaded.passwordHash ∨ updated.passwordHash ≠ none
  wallet : updated.lnurlPubkey = loaded.lnurlPubkey ∨ updated.lnurlPubkey = none

theorem Sets.keeps {loaded updated : User} (sets : Sets loaded updated) (row : User) :
    Keeps row (loaded.flush updated row) where
  id := rfl
  email held := writeColumn_some sets.email held
  login held := writeColumn_some sets.login held
  password held := writeColumn_some sets.password held

theorem Sets.flush_wallet {loaded updated : User} (sets : Sets loaded updated) (row : User) :
    (loaded.flush updated row).lnurlPubkey = row.lnurlPubkey ∨ (loaded.flush updated row).lnurlPubkey = none := by
  simp only [User.flush, writeColumn]
  split
  next => exact .inl rfl
  next changed => exact .inr (sets.wallet.resolve_left changed)

/-- The user of a page is stored, and has a password there if it has one on the page. -/
def OnPage (db : Db) (user : User) : Prop :=
  ∃ stored ∈ db.users.rows, stored.id = user.id ∧ (user.passwordHash ≠ none → stored.passwordHash ≠ none)

def PagesStored (state : State) : Prop := ∀ page user, state.pages page = some user → OnPage state.db user

theorem OnPage.evolve {unlinked : User → Prop} {before after : Db} {user : User} (evolves : Evolves unlinked before after)
    (stored : OnPage before user) : OnPage after user := by
  obtain ⟨row, member, same, password⟩ := stored
  obtain ⟨later, inside, keeps⟩ := evolves.goes row member
  exact ⟨later, inside, keeps.id.trans same, fun held => keeps.password (password held)⟩

theorem PagesStored.update {unlinked : User → Prop} {state : State} {after : Db} {page : Nat} {shown : Option User}
    (stored : PagesStored state) (evolves : Evolves unlinked state.db after)
    (onPage : ∀ user, shown = some user → OnPage after user) :
    PagesStored ⟨after, Function.update state.pages page shown⟩ := by
  intro other user displayed
  by_cases same : other = page
  · subst same
    simp only [Function.update_self] at displayed
    exact onPage user displayed
  · simp only [Function.update_of_ne same] at displayed
    exact (stored other user displayed).evolve evolves

section step
variable {env : Settings} {curve : Secp256k1} {host : Host} {state next : State} {operation : Operation}

def Unlinked (state : State) : Operation → User → Prop
  | .unlink page => fun row => ∃ user, state.pages page = some user ∧ truthy user.passwordHash ∧
      user.lnurlPubkey ≠ none ∧ row.id = user.id
  | _ => fun _ => False

theorem edit_sets {db : Db} {page : Nat} {user updated : User} (edit : Edit host db page user operation updated) :
    Sets user updated := by
  cases edit with
  | nickname => exact ⟨rfl, .inl rfl, .inl rfl, .inl rfl, .inl rfl⟩
  | email => exact ⟨rfl, .inr (Option.some_ne_none _), .inl rfl, .inl rfl, .inl rfl⟩
  | password => exact ⟨rfl, .inl rfl, .inl rfl, .inr (Option.some_ne_none _), .inl rfl⟩
  | wallet => exact ⟨rfl, .inl rfl, .inl rfl, .inl rfl, .inr rfl⟩

theorem kept_wallet {loaded updated : User} (same : updated.lnurlPubkey = loaded.lnurlPubkey) (row : User)
    (held : row.lnurlPubkey ≠ none) : (loaded.flush updated row).lnurlPubkey ≠ none := by
  simpa only [User.flush, same, writeColumn, ite_true] using held

/-- Only the account of the page loses its wallet, and only if the page shows one and a password. -/
theorem edit_unlinks {page : Nat} {user updated : User} (edit : Edit host state.db page user operation updated)
    (shown : state.pages page = some user) (row : User) (same : row.id = user.id) :
    Unlinked state operation row ∨ (row.lnurlPubkey ≠ none → (user.flush updated row).lnurlPubkey ≠ none) := by
  cases edit with
  | nickname | email | password => exact .inr (kept_wallet rfl row)
  | wallet password =>
    by_cases wallet : user.lnurlPubkey = none
    · exact .inr (kept_wallet wallet.symm row)
    · exact .inl ⟨user, shown, password, wallet, same⟩

theorem change_evolves {after : Db} (change : Change host state operation after.users.rows) :
    Evolves (Unlinked state operation) state.db after := by
  generalize rows : after.users.rows = changed at change
  cases change with
  | same => exact .same rows
  | registers => exact .insert (.inr ⟨Option.some_ne_none _, .inl (Option.some_ne_none _)⟩) rows
  | inserts => exact .insert (.inl (Option.some_ne_none _)) rows
  | links =>
    refine .update ?_ ?_ rows
    · exact fun row => ⟨rfl, fun held => held, fun held => held, fun held => held⟩
    · exact fun row _ => .inr fun _ => Option.some_ne_none _
  | edits shown edit => exact .update (edit_sets edit).keeps (edit_unlinks edit shown) rows

theorem PagesStored.evolve {unlinked : User → Prop} {after : Db} (stored : PagesStored state)
    (evolves : Evolves unlinked state.db after) : PagesStored { state with db := after } :=
  fun page user displayed => (stored page user displayed).evolve evolves

theorem raised_stored (page : Nat) (error : PyError) (stored : PagesStored state) :
    PagesStored (saved state page (.raised error)) := by
  cases error with
  | integrityError =>
    have same : Evolves (fun _ => False) state.db state.db := .same rfl
    exact stored.update same fun user impossible => nomatch impossible
  | _ => exact stored

theorem saved_stored {page : Nat} {user : User} {result : Profile.Saved} (acts : Acts host state.db page user operation result)
    (stored : PagesStored state) (shown : state.pages page = some user) : PagesStored (saved state page result) := by
  cases acts with
  | told message =>
    have same : Evolves (fun _ => False) state.db state.db := .same rfl
    apply stored.update same
    intro other displayed
    cases displayed
    exact stored page user shown
  | raised error => exact raised_stored page error stored
  | @commits updated message edit =>
    cases committed : Profile.commit state.db user updated message with
    | raised error => exact raised_stored page error stored
    | notified after current told =>
      obtain ⟨rfl, rows⟩ := commit_notified committed
      have evolves : Evolves (Unlinked state operation) state.db after :=
        .update (edit_sets edit).keeps (edit_unlinks edit shown) rows
      apply stored.update evolves
      intro other displayed
      cases displayed
      obtain ⟨row, member, same, password⟩ := stored page user shown
      refine ⟨user.flush current row, by rw [rows]; exact mem_update_of_selected member same,
        same.trans (edit_sets edit).id.symm, ?_⟩
      intro held
      simp only [User.flush, writeColumn]
      split
      next unchanged => exact password (unchanged ▸ held)
      next => exact held

theorem onPage_stored (host : Host) {page : Nat} {action : User → Profile.Saved} (stored : PagesStored state)
    (acts : ∀ user, Acts host state.db page user operation (action user)) (taken : onPage state page action = some next) :
    PagesStored next := by
  obtain ⟨user, shown, rfl⟩ := Option.map_eq_some_iff.mp taken
  exact saved_stored (acts user) stored shown

theorem step_evolves (stored : PagesStored state) (taken : step env curve host state operation = some next) :
    Evolves (Unlinked state operation) state.db next.db ∧ PagesStored next := by
  have evolves := change_evolves (step_change taken)
  refine ⟨evolves, ?_⟩
  cases operation with
  | register | callback => cases taken; exact stored.evolve evolves
  | issue k1 action now =>
    obtain ⟨after, added, rfl⟩ := Option.map_eq_some_iff.mp taken
    exact stored.evolve evolves
  | issueLink page k1 now =>
    simp only [step, Option.bind_eq_bind, Option.bind_eq_some_iff, Option.some.injEq] at taken
    obtain ⟨user, -, after, added, rfl⟩ := taken
    exact stored.evolve evolves
  | openProfile page userId =>
    obtain ⟨user, found, rfl⟩ := Option.map_eq_some_iff.mp taken
    apply stored.update evolves
    intro other shown
    cases shown
    exact ⟨user, (mem_of_lookup found).1, rfl, fun held => held⟩
  | nickname page raw => exact onPage_stored host stored (fun user => nickname_acts page raw) taken
  | email page raw => exact onPage_stored host stored (fun user => email_acts page raw) taken
  | password page salt form => exact onPage_stored host stored (fun user => password_acts page salt form) taken
  | unlink page => exact onPage_stored host stored (fun user => unlink_acts page) taken

theorem initial_stored : PagesStored initial := fun _ _ impossible => nomatch impossible

theorem step_usable (stored : PagesStored state) (usable : EveryoneUsable state) (recoverable : Recoverable state operation)
    (taken : step env curve host state operation = some next) : EveryoneUsable next := by
  intro later member
  rcases (step_evolves stored taken).1.comes later member with fresh | ⟨row, old, keeps, lost | wallet⟩
  · exact fresh
  · cases operation with
    | unlink page =>
      obtain ⟨user, open', password, held, same⟩ := lost
      obtain ⟨onPage, inside, pageSame, kept⟩ := stored page user open'
      have row' : onPage = row := state.db.users.valid.id.unique inside old (pageSame.trans same.symm)
      subst row'
      have hash : onPage.passwordHash ≠ none := kept fun missing => by rw [missing] at password; cases password
      rcases recoverable user open' password held onPage inside pageSame with email | login
      · exact .inr ⟨keeps.password hash, .inl (keeps.email email)⟩
      · exact .inr ⟨keeps.password hash, .inr (keeps.login login)⟩
    | _ => exact lost.elim
  · exact keeps.usable wallet (usable row old)

theorem unlink_commits (db : Db) (user : User) :
    ∃ after, Profile.commit db user { user with lnurlPubkey := none } "Wallet unlinked." =
      .notified after { user with lnurlPubkey := none } "Wallet unlinked." ∧
      after.users.rows = update (fun stored => stored.id = user.id)
        (user.flush { user with lnurlPubkey := none }) db.users.rows := by
  have valid : UserConstraints
      (update (fun stored => stored.id = user.id) (user.flush { user with lnurlPubkey := none }) db.users.rows) := by
    refine ⟨db.users.valid.id.update (User.flush_id _ _), db.users.valid.lnurlPubkey.update ?_,
      db.users.valid.email.update fun row _ _ => .inl ?_, db.users.valid.login.update fun row _ _ => .inl ?_⟩
    · intro row _ _
      simp only [User.flush, writeColumn]
      split
      · exact .inl rfl
      · exact .inr rfl
    · simp [User.flush, writeColumn]
    · simp [User.flush, writeColumn]
  refine ⟨{ db with users := ⟨_, valid⟩ }, ?_, rfl⟩
  unfold Profile.commit
  rw [Table.store_some.mpr (rfl : (⟨_, valid⟩ : Users).rows = _)]

theorem usable_recoverable (usable : EveryoneUsable next) (taken : step env curve host state operation = some next) :
    Recoverable state operation := by
  cases operation with
  | unlink page =>
    intro user open' password wallet stored member same
    by_contra nameless
    obtain ⟨noEmail, noLogin⟩ := not_or.mp nameless
    obtain ⟨after, committed, rows⟩ := unlink_commits state.db user
    have result : saved state page (Profile.unlink state.db user) = next := by
      obtain ⟨other, shown, rfl⟩ := Option.map_eq_some_iff.mp taken
      cases open'.symm.trans shown
      rfl
    rw [Profile.unlink, password, committed] at result
    subst result
    have inside := usable (user.flush { user with lnurlPubkey := none } stored)
      (by change _ ∈ after.users.rows; rw [rows]; exact mem_update_of_selected member same)
    rcases inside with held | ⟨-, email | login⟩
    · exact held (by simp [User.flush, writeColumn, wallet.symm])
    · exact noEmail (by simpa [User.flush, writeColumn] using email)
    · exact noLogin (by simpa [User.flush, writeColumn] using login)
  | _ => trivial

end step

/-- From no users, everyone has a way to sign in in every reached state exactly
when every wallet is unlinked from an account that has a name. -/
theorem everyone_usable_iff (env : Settings) (curve : Secp256k1) (host : Host) (operations : List Operation) (final : State)
    (executed : run (step env curve host) initial operations = some final) :
    Along (step env curve host) Recoverable initial operations ↔
      ∀ first second reached, operations = first ++ second → run (step env curve host) initial first = some reached →
        EveryoneUsable reached := by
  constructor
  · rintro along first second reached rfl partway
    have both := run_invariant_along (fun state => PagesStored state ∧ EveryoneUsable state)
      (fun _ _ _ kept recoverable taken => ⟨(step_evolves kept.1 taken).2, step_usable kept.1 kept.2 recoverable taken⟩)
      (along.append partway).1 ⟨initial_stored, fun user member => nomatch member⟩ partway
    exact both.2
  · exact Along.of_reached (fun _ => True) EveryoneUsable (fun _ _ _ _ _ => trivial)
      (fun _ _ _ _ taken usable => usable_recoverable usable taken) trivial executed

def registerQuery : LnurlAuthCallbackIn where
  k1 := "7777777777777777777777777777777777777777777777777777777777777777"
  sig := "0000000000000007"
  key := "020000000000000000000000000000000000000000000000000000000000000007"
  action := some .register
  k1Length := String.length_ofList
  sigLength := by decide
  keyLength := String.length_ofList

/-- A register page shows the k1 of the query. -/
def registerIssued : State where
  db := ⟨⟨[], .nil⟩, ⟨[{ k1 := registerQuery.k1, action := "register", createdAt := 0 }], List.nodup_singleton _⟩⟩
  pages _ := none

def walletRegistered : State where
  db :=
    ⟨⟨[walletUser 7 registerQuery.key], by decide⟩,
      ⟨[{ k1 := registerQuery.k1, userId := some 7, action := "register", consumed := true, createdAt := 0 }],
        List.nodup_singleton _⟩⟩
  pages _ := none

theorem registerQuery_registers :
    step {} (.answering (.ok true)) .ascii registerIssued (.callback 7 registerQuery 0) = some walletRegistered :=
  Eq.trans (step_verified ⟨rfl, rfl, verify_answering rfl rfl rfl⟩) rfl

/-- A wallet account sets a password. -/
def walletThenPassword : List Operation :=
  [.issue registerQuery.k1 .register 0, .callback 7 registerQuery 0, .openProfile 0 7,
    .password 0 1 ⟨none, "Secret-42", "Secret-42"⟩]

theorem registration_runs (later : List Operation) {final : State}
    (executed : run (step {} (.answering (.ok true)) .ascii) walletRegistered
      ([.openProfile 0 7, .password 0 1 ⟨none, "Secret-42", "Secret-42"⟩] ++ later) = some final) :
    run (step {} (.answering (.ok true)) .ascii) initial (walletThenPassword ++ later) = some final :=
  run_cons_some.mpr ⟨registerIssued, rfl, run_cons_some.mpr ⟨walletRegistered, registerQuery_registers, executed⟩⟩

theorem named_account_unlinks :
    ∃ final, run (step {} (.answering (.ok true)) .ascii) initial
      (walletThenPassword ++ [.email 0 "a@b.org", .unlink 0]) = some final ∧
      EveryoneUsable final := by
  have executed := registration_runs [.email 0 "a@b.org", .unlink 0] rfl
  refine ⟨_, executed, (everyone_usable_iff {} (.answering (.ok true)) .ascii
    (walletThenPassword ++ [.email 0 "a@b.org", .unlink 0]) _ executed).mp ?_ _ [] _ (List.append_nil _).symm executed⟩
  have issued : step {} (.answering (.ok true)) .ascii initial (.issue registerQuery.k1 .register 0) = some registerIssued := rfl
  refine .cons issued trivial (.cons registerQuery_registers trivial (.cons rfl trivial
    (.cons rfl trivial (.cons rfl trivial (.cons rfl ?_ trivial)))))
  intro user open' _ _ stored member _
  cases List.mem_singleton.mp member
  exact .inl (Option.some_ne_none _)

theorem nameless_account_locked_out :
    ∃ final, run (step {} (.answering (.ok true)) .ascii) initial (walletThenPassword ++ [.unlink 0]) = some final ∧
      ¬ EveryoneUsable final := by
  refine ⟨_, registration_runs [.unlink 0] rfl, ?_⟩
  intro usable
  rcases usable _ List.mem_cons_self with wallet | ⟨-, email | login⟩
  · exact wallet rfl
  · exact email rfl
  · exact login rfl

end Satoidc.Proofs.SignInMethods
