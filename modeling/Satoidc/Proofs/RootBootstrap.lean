import Satoidc.SetupWizard
import Satoidc.Foundation.Runs
import Satoidc.Proofs.CallbackEffects

/-! How many administrators one execution of the setup wizard creates. Whether there is
one is asked before the wizard serves its pages, never by the handlers that create one;
what keeps a second from being created is only that nobody acts before the shutdown. -/

namespace Satoidc.Proofs.RootBootstrap
open Foundation SetupWizard Execution

def rootRows (state : State) : List Permission :=
  state.permissions.rows.filter fun permission => permission.permissionType = .root

theorem existsRootUser_iff {state : State} : existsRootUser state.store = true ↔ rootRows state ≠ [] := by
  rw [existsRootUser, List.any_eq_true, ← List.length_pos_iff, List.length_pos_iff_exists_mem]
  simp only [rootRows, List.mem_filter]
  rfl

def NotRoot (store : Store) (userId : UserId) : Prop :=
  ∀ permission ∈ store.permissions.rows, permission.pair ≠ (userId, .root)

theorem store_rootPermission {store : Store} {userId : UserId} :
    PermissionConstraints (store.permissions.rows ++ [rootPermission store.permissions.rows userId]) ↔ NotRoot store userId := by
  constructor
  · rintro ⟨-, userType⟩
    exact (Keyed.append_singleton.mp userType).2
  · intro new
    refine ⟨Keyed.append_singleton.mpr ⟨store.permissions.valid.id, ?_⟩,
      Keyed.append_singleton.mpr ⟨store.permissions.valid.userType, new⟩⟩
    intro other member
    exact Nat.ne_of_lt (lt_nextId member)

/-- The form passes the validators, and the database takes its rows. -/
structure Acceptable (host : Host) (store : Store) (uuid : UserId) (form : RootForm) : Prop where
  valid : validateRegistrationForm host.isValidEmail form.login form.nickname form.password form.email = []
  id : ∀ user ∈ store.db.users.rows, user.id ≠ uuid
  email : ∀ user ∈ store.db.users.rows, user.email ≠ some (host.lower (stripped form.email))
  login : ∀ user ∈ store.db.users.rows, user.login ≠ some (stripped form.login)
  permission : NotRoot store uuid

theorem store_rootUser {host : Host} {store : Store} {uuid : UserId} {salt : Nat} {form : RootForm} :
    UserConstraints (store.db.users.rows ++ [rootUser host uuid salt form]) ↔
      (∀ user ∈ store.db.users.rows, user.id ≠ uuid) ∧
        (∀ user ∈ store.db.users.rows, user.email ≠ some (host.lower (stripped form.email))) ∧
        ∀ user ∈ store.db.users.rows, user.login ≠ some (stripped form.login) := by
  constructor
  · rintro ⟨id, -, email, login⟩
    exact ⟨(Keyed.append_singleton.mp id).2, (UniqueColumn.append_singleton.mp email).2 _ rfl,
      (UniqueColumn.append_singleton.mp login).2 _ rfl⟩
  · rintro ⟨id, email, login⟩
    have valid := store.db.users.valid
    refine ⟨Keyed.append_singleton.mpr ⟨valid.id, id⟩, UniqueColumn.append_singleton.mpr ⟨valid.lnurlPubkey, ?_⟩,
      UniqueColumn.append_singleton.mpr ⟨valid.email, ?_⟩, UniqueColumn.append_singleton.mpr ⟨valid.login, ?_⟩⟩
    · rintro value ⟨⟩
    · rintro value ⟨⟩
      exact email
    · rintro value ⟨⟩
      exact login

variable {host : Host} {store after : Store} {uuid : UserId} {salt : Nat} {form : RootForm} {page : Page} {data : LnurlAuthEvent}

theorem submit_created_iff :
    (∃ after, submit host uuid salt store form = .created after) ↔ Acceptable host store uuid form := by
  constructor
  · rintro ⟨after, created⟩
    obtain ⟨valid, users, permissions⟩ := submit_created created
    obtain ⟨id, email, login⟩ := store_rootUser.mp (users ▸ after.db.users.valid)
    exact ⟨valid, id, email, login, store_rootPermission.mp (permissions ▸ after.permissions.valid)⟩
  · intro acceptable
    have users : UserConstraints (store.db.users.rows ++ [rootUser host uuid salt form]) :=
      store_rootUser.mpr ⟨acceptable.id, acceptable.email, acceptable.login⟩
    have permissions := store_rootPermission.mpr acceptable.permission
    unfold submit
    simp only [acceptable.valid, ne_eq, not_true_eq_false, if_false, Table.store, dif_pos users, dif_pos permissions]
    exact ⟨_, rfl⟩

/-- An event handler creates a permission for the user of an event for its own k1. -/
def Answers (store : Store) (page : Page) (data : LnurlAuthEvent) : Prop :=
  page.k1 = some data.k1 ∧ ∃ userId, data.userId = some userId ∧ NotRoot store userId

theorem eventHandler_stored (created : eventHandler store page data = some (.created after)) :
    page.k1 = some data.k1 ∧ ∃ userId, data.userId = some userId ∧
      after.permissions.rows = store.permissions.rows ++ [rootPermission store.permissions.rows userId] := by
  unfold eventHandler at created
  split at created
  next => cases created
  next shown =>
    split at created
    next permissions stored =>
      cases created
      obtain ⟨userId, signed, added⟩ := Option.bind_eq_some_iff.mp stored
      exact ⟨(not_not.mp shown).symm, userId, signed, Table.store_some.mp added⟩
    next => cases created

theorem eventHandler_created_iff :
    (∃ after, eventHandler store page data = some (.created after)) ↔ Answers store page data := by
  constructor
  · rintro ⟨after, created⟩
    obtain ⟨shown, userId, signed, rows⟩ := eventHandler_stored created
    exact ⟨shown, userId, signed, store_rootPermission.mp (rows ▸ after.permissions.valid)⟩
  · rintro ⟨shown, userId, signed, new⟩
    have permissions := store_rootPermission.mpr new
    unfold eventHandler
    rw [if_neg (not_not.mpr shown.symm), signed]
    simp only [Option.bind_some, Table.store, dif_pos permissions]
    exact ⟨_, rfl⟩

def Acts : Event → Prop
  | .submit _ _ _ _ | .handle _ => True
  | _ => False

/-- The event is a form or a wallet's answer with which a root permission is created. -/
def Grants (host : Host) (state : State) : Event → Prop
  | .submit index uuid _ form =>
    ∃ page, state.pages[index]? = some page ∧ page.usable = true ∧ Acceptable host state.store uuid form
  | .handle delivery =>
    ∃ index data page, state.deliveries[delivery]? = some (index, data) ∧ state.pages[index]? = some page ∧
      page.usable = true ∧ Answers state.store page data
  | _ => False

/-- An event that comes while there is a root permission creates none. -/
def InTime (host : Host) (state : State) (event : Event) : Prop :=
  existsRootUser state.store = true → ¬ Grants host state event

/-- What a step does to the users and the permissions. -/
inductive Effect (host : Host) (state : State) (event : Event) (next : State) : Prop where
  | granted (grants : Grants host state event) (userId : UserId)
      (permissions : next.permissions.rows = state.permissions.rows ++ [rootPermission state.permissions.rows userId])
  | none (refused : ¬ Grants host state event) (permissions : next.permissions = state.permissions)
      (users : Acts event → next.store.db.users = state.store.db.users)

variable {env : Settings} {curve : Secp256k1} {state next : State} {event : Event}

/-- What a handler's outcome on a page does; `base` is the state without the event. -/
theorem after_effect {base : State} {index : Nat} {submitted : Submitted} (same : base.store = state.store)
    (grants : Grants host state event ↔ page.usable = true ∧ ∃ store, submitted = .created store)
    (created : ∀ store, submitted = .created store →
      ∃ userId, store.permissions.rows = state.permissions.rows ++ [rootPermission state.permissions.rows userId]) :
    Effect host state event (base.after index page submitted) := by
  have permissions : base.permissions = state.permissions := congrArg Store.permissions same
  have users : base.store.db.users = state.store.db.users := congrArg (fun store => store.db.users) same
  cases submitted with
  | notified | raised =>
    refine .none ?_ permissions fun _ => users
    intro granted
    obtain ⟨-, _, impossible⟩ := grants.mp granted
    cases impossible
  | created store =>
    cases usable : page.usable with
    | false =>
      simp only [State.after, usable, Bool.false_eq_true, if_false]
      refine .none ?_ permissions fun _ => users
      intro granted
      exact Bool.false_ne_true (usable.symm.trans (grants.mp granted).1)
    | true =>
      obtain ⟨userId, rows⟩ := created store rfl
      simp only [State.after, usable, if_true]
      exact .granted (grants.mpr ⟨usable, store, rfl⟩) userId rows

theorem step_effect (taken : step env curve host state event = some next) : Effect host state event next := by
  unfold step at taken
  split at taken
  next =>
    cases event with
    | openPage => cases taken; exact .none not_false rfl nofun
    | refreshQrcode index k1 now =>
      simp only [Option.bind_eq_bind, Option.bind_eq_some_iff] at taken
      obtain ⟨page, -, refreshed⟩ := taken
      split at refreshed <;> cases refreshed <;> exact .none not_false rfl nofun
    | callback call =>
      simp only [Option.bind_eq_bind, Option.bind_eq_some_iff, Option.some.injEq] at taken
      obtain ⟨calls, -, rfl⟩ := taken
      exact .none not_false rfl nofun
    | submit index uuid salt form =>
      simp only [Option.bind_eq_bind, Option.bind_eq_some_iff, Option.some.injEq] at taken
      obtain ⟨page, found, rfl⟩ := taken
      refine after_effect rfl ?_ fun store created => ⟨uuid, (submit_created created).2.2⟩
      rw [submit_created_iff]
      constructor
      · rintro ⟨other, shown, granted⟩
        cases found.symm.trans shown
        exact granted
      · intro granted
        exact ⟨page, found, granted⟩
    | handle delivery =>
      simp only [Option.bind_eq_bind, Option.bind_eq_some_iff] at taken
      obtain ⟨⟨index, data⟩, delivered, page, found, handled⟩ := taken
      have grants : Grants host state (.handle delivery) ↔
          page.usable = true ∧ ∃ store, eventHandler state.store page data = some (.created store) := by
        rw [eventHandler_created_iff]
        constructor
        · rintro ⟨_, _, other, waiting, shown, granted⟩
          cases delivered.symm.trans waiting
          cases found.symm.trans shown
          exact granted
        · intro granted
          exact ⟨index, data, page, delivered, found, granted⟩
      cases submitted : eventHandler state.store page data with
      | none =>
        rw [submitted] at handled grants
        cases handled
        exact .none (fun granted => nomatch (grants.mp granted).2) rfl fun _ => rfl
      | some result =>
        rw [submitted] at handled grants
        cases handled
        refine after_effect rfl (grants.trans (by simp only [Option.some.injEq])) ?_
        rintro store rfl
        obtain ⟨-, userId, -, rows⟩ := eventHandler_stored submitted
        exact ⟨userId, rows⟩
    | shutdown =>
      dsimp only at taken
      split at taken
      next => cases taken; exact .none not_false rfl nofun
      next => cases taken
  next => cases taken

/-- At most one root permission is ever stored, and from then on forms and events leave
the users and the permissions alone. -/
structure OnceOnly (env : Settings) (curve : Secp256k1) (host : Host) (start : State) (events : List Event) : Prop where
  oneRoot : ∀ first second reached, events = first ++ second → run (step env curve host) start first = some reached →
    (rootRows reached).length ≤ 1
  settled : ∀ first event second before after, events = first ++ event :: second →
    run (step env curve host) start first = some before → step env curve host before event = some after →
    existsRootUser before.store = true → Acts event →
    after.store.db.users = before.store.db.users ∧ after.permissions = before.permissions

theorem main_no_root {store : Store} {start : State} (started : main store = some start) : rootRows start = [] := by
  unfold main at started
  split at started
  next => cases started
  next missing =>
    cases started
    exact not_not.mp fun some => missing (existsRootUser_iff.mpr some)

theorem step_oneRoot (one : (rootRows state).length ≤ 1) (inTime : InTime host state event)
    (taken : step env curve host state event = some next) : (rootRows next).length ≤ 1 := by
  cases step_effect taken with
  | granted grants userId permissions =>
    have none : rootRows state = [] := by
      by_contra some
      exact inTime (existsRootUser_iff.mpr some) grants
    have added : rootRows next = rootRows state ++ [rootPermission state.permissions.rows userId] := by
      rw [rootRows, permissions, List.filter_append]
      rfl
    rw [added, none]
    exact le_refl 1
  | none refused permissions users =>
    rw [rootRows, permissions]
    exact one

/-- In every execution that is started without a root permission, there is one at most,
and nothing changes after it, exactly if no form or event that creates one comes in the
time between it and the shutdown. -/
theorem once_only (env : Settings) (curve : Secp256k1) (host : Host) (store : Store) (start final : State) (events : List Event)
    (started : main store = some start) (executed : run (step env curve host) start events = some final) :
    OnceOnly env curve host start events ↔ Along (step env curve host) (InTime host) start events := by
  constructor
  · intro once
    refine .of_run executed ?_
    intro first event second before after split partway taken _ root grants
    have acts : Acts event := by
      cases event with
      | submit | handle => trivial
      | openPage | refreshQrcode | callback | shutdown => exact grants.elim
    obtain ⟨-, same⟩ := once.settled first event second before after split partway taken root acts
    cases step_effect taken with
    | granted _ userId permissions =>
      rw [same] at permissions
      cases List.self_eq_append_right.mp permissions
    | none refused _ _ => exact refused grants
  · intro along
    constructor
    · rintro first second reached rfl partway
      refine run_invariant_along (fun state => (rootRows state).length ≤ 1) ?_ (along.append partway).1 ?_ partway
      · intro state event next one inTime taken
        exact step_oneRoot one inTime taken
      · rw [main_no_root started]
        exact Nat.zero_le 1
    · intro first event second before after split partway taken root acts
      cases step_effect taken with
      | granted grants => exact absurd grants (along_iff.mp along first event second before split partway root)
      | none _ permissions users => exact ⟨users acts, permissions⟩

theorem callback_step {env : Settings} {curve : Secp256k1} {host : Host} {state : State} {call : Nat × LnurlCallback.Input}
    {calls : World LnurlCallback.Store LnurlCallback.Phase} (on : state.running = true)
    (taken : state.calls.step (LnurlCallback.advance env curve) call = some calls) :
    step env curve host state (.callback call) =
      some { state with calls, deliveries := state.deliveries ++ emitted state.pages (calls.sessions call.1) } := by
  simp only [step, on, if_true, taken]
  rfl

def emptyStore : Store := ⟨⟨⟨[], .nil⟩, ⟨[], List.nodup_nil⟩⟩, ⟨[], .nil⟩⟩

def satoshiForm : RootForm := { login := "satoshi", email := "satoshi@example.com", password := "Secret-42" }

def registerQuery : LnurlAuthCallbackIn where
  k1 := "b7b7b7b7b7b7b7b7b7b7b7b7b7b7b7b7b7b7b7b7b7b7b7b7b7b7b7b7b7b7b7b7"
  sig := "00000000000000b7"
  key := "0200000000000000000000000000000000000000000000000000000000000000b7"
  action := some .register
  k1Length := String.length_ofList
  sigLength := by decide
  keyLength := String.length_ofList

/-- The other visitor leaves the login empty at first, and then chooses the one that is taken. -/
def oneAccepted : List Event :=
  [.openPage, .openPage, .submit 1 3 7 { satoshiForm with login := "" }, .submit 0 1 7 satoshiForm, .submit 1 3 7 satoshiForm,
    .shutdown]

/-- Both finish before the shutdown: one with a form, one with a wallet, and the first one
once more. -/
def twoVisitors : List Event :=
  [.openPage, .openPage, .refreshQrcode 1 registerQuery.k1 0, .callback (0, .begin registerQuery 0),
    .callback (0, .next 2), .callback (0, .next 2), .submit 0 1 7 satoshiForm, .handle 1,
    .submit 0 3 7 { satoshiForm with login := "satoshi2", email := "satoshi2@example.com" }, .shutdown]

theorem oneAccepted_once : ∃ start final, main emptyStore = some start ∧
    run (step {} (.answering (.ok true)) .ascii) start oneAccepted = some final ∧ (rootRows final).length = 1 ∧
    OnceOnly {} (.answering (.ok true)) .ascii start oneAccepted := by
  refine ⟨_, _, rfl, rfl, by decide, (once_only {} (.answering (.ok true)) .ascii emptyStore _ _ oneAccepted rfl rfl).mpr ?_⟩
  refine .cons rfl nofun (.cons rfl nofun (.cons rfl nofun (.cons rfl nofun (.cons rfl ?_ (.cons rfl ?_ trivial)))))
  · rintro - ⟨page, -, -, acceptable⟩
    exact acceptable.login _ List.mem_cons_self rfl
  · exact fun _ => id

def wizardOpened : State := (main emptyStore).get rfl

/-- The wallet's callback has the row of the challenge. -/
def callbackBegun : State := (run (step {} (.answering (.ok true)) .ascii) wizardOpened (twoVisitors.take 4)).getD wizardOpened

def registerConsumed : LnurlAuthChallenge where
  k1 := registerQuery.k1
  action := "register"
  consumed := true
  createdAt := 0

/-- The callback has found nobody with the wallet. -/
def resolvedCalls : World LnurlCallback.Store LnurlCallback.Phase :=
  callbackBegun.calls.moved 0 callbackBegun.calls.shared (.resolved registerQuery registerConsumed none)

theorem callback_resolves : step {} (.answering (.ok true)) .ascii callbackBegun (.callback (0, .next 2)) =
    some { callbackBegun with calls := resolvedCalls } := by
  have verified : CallbackEffects.Verified {} (.answering (.ok true)) 0 callbackBegun.calls.shared.db registerQuery
      registerConsumed := ⟨rfl, rfl, verify_answering rfl rfl rfl⟩
  exact callback_step rfl (CallbackEffects.step_resolves rfl verified)

theorem twoVisitors_twice : ∃ start final, main emptyStore = some start ∧
    run (step {} (.answering (.ok true)) .ascii) start twoVisitors = some final ∧ (rootRows final).length = 3 ∧
    ¬ OnceOnly {} (.answering (.ok true)) .ascii start twoVisitors := by
  have executed : run (step {} (.answering (.ok true)) .ascii) wizardOpened
      (twoVisitors.take 4 ++ twoVisitors.drop 4) = some _ :=
    run_append_some.mpr ⟨callbackBegun, rfl, run_cons_some.mpr ⟨_, callback_resolves, rfl⟩⟩
  refine ⟨wizardOpened, _, rfl, executed, by decide, ?_⟩
  intro once
  exact absurd (once.oneRoot twoVisitors [] _ rfl executed) (by decide)

end Satoidc.Proofs.RootBootstrap
