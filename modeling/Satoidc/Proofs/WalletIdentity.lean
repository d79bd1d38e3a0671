import Satoidc.Proofs.SignInMethods

/-! One account per wallet. Signatures are checked against the bytes of a key and
accounts are found by its text, so the two agree as long as every wallet comes
back in the spelling under which it is stored. -/

namespace Satoidc.Proofs.WalletIdentity
open Foundation Accounts CallbackEffects UserChanges SignInMethods

/-- Two spellings of one public key. -/
def SameWallet (first second : String) : Prop :=
  ∃ bytes, bytesFromHex first = .ok bytes ∧ bytesFromHex second = .ok bytes

theorem SameWallet.symm {first second : String} (same : SameWallet first second) : SameWallet second first := by
  obtain ⟨bytes, left, right⟩ := same
  exact ⟨bytes, right, left⟩

def Holds (user : User) (key : String) : Prop := ∃ stored, user.lnurlPubkey = some stored ∧ SameWallet stored key

def OneHolder (db : Db) : Prop :=
  ∀ first ∈ db.users.rows, ∀ second ∈ db.users.rows, ∀ key, first.lnurlPubkey = some key → Holds second key → first = second

/-- The callback is about whose wallet it is: it registers or signs in an account,
or links the wallet to an account other than `holder`. -/
def Concerns (db : Db) (query : LnurlAuthCallbackIn) (challenge : LnurlAuthChallenge) (holder : User) : Prop :=
  query.action = some .register ∨ query.action = some .login ∨
    query.action = some .link ∧ ∃ user, challenge.userId = some user.id ∧ db.userById user.id = some user ∧ user.id ≠ holder.id

/-- A callback that passes all checks, and is about whose wallet it is, spells the
wallet as its holder's row does. -/
def SpelledAs (env : Settings) (curve : Secp256k1) (now : Instant) (db : Db) (query : LnurlAuthCallbackIn) : Prop :=
  ∀ challenge, Verified env curve now db query challenge →
    ∀ holder ∈ db.users.rows, Holds holder query.key → Concerns db query challenge holder →
      holder.lnurlPubkey = some query.key

def Spelled (env : Settings) (curve : Secp256k1) (state : State) : Operation → Prop
  | .callback _ query now => SpelledAs env curve now state.db query
  | _ => True

theorem userByPubkey_some {db : Db} {key : String} {user : User} :
    db.userByPubkey key = some user ↔ user ∈ db.users.rows ∧ user.lnurlPubkey = some key := by
  unfold Db.userByPubkey
  constructor
  · intro found
    exact ⟨List.mem_of_find?_eq_some found, by simpa using List.find?_some found⟩
  · rintro ⟨member, holds⟩
    cases found : db.users.rows.find? fun user => decide (user.lnurlPubkey = some key) with
    | none => exact absurd (List.find?_eq_none.mp found user member) (by simp [holds])
    | some other =>
      have same := db.users.valid.lnurlPubkey.unique (List.mem_of_find?_eq_some found) member
        (by simpa using List.find?_some found) holds
      rw [same]

/-- Every wallet held after an operation was held by the same account before. -/
def KeepsWallets (before after : Db) : Prop :=
  ∀ later ∈ after.users.rows, later.lnurlPubkey = none ∨
    ∃ row ∈ before.users.rows, row.id = later.id ∧ row.lnurlPubkey = later.lnurlPubkey

theorem KeepsWallets.same {before after : Db} (rows : after.users.rows = before.users.rows) : KeepsWallets before after :=
  fun later member => .inr ⟨later, rows ▸ member, rfl, rfl⟩

theorem KeepsWallets.oneHolder {before after : Db} (keeps : KeepsWallets before after) (one : OneHolder before) :
    OneHolder after := by
  intro first left second right key held holds
  obtain ⟨stored, shown, same⟩ := holds
  rcases keeps first left with missing | ⟨a, aMember, aId, aKey⟩
  · cases missing.symm.trans held
  rcases keeps second right with missing | ⟨b, bMember, bId, bKey⟩
  · cases missing.symm.trans shown
  have rows := one a aMember b bMember key (aKey.trans held) ⟨stored, bKey.trans shown, same⟩
  exact after.users.valid.id.unique left right (aId.symm.trans ((congrArg User.id rows).trans bId))

section step
variable {env : Settings} {curve : Secp256k1} {host : Host} {state next : State}

theorem step_wallets {operation : Operation} (other : ∀ uuid query now, operation ≠ .callback uuid query now)
    (taken : step env curve host state operation = some next) : KeepsWallets state.db next.db := by
  have change := step_change taken
  generalize rows : next.db.users.rows = changed at change
  cases change with
  | same => exact .same rows
  | registers checked =>
    intro later member
    rw [rows, List.mem_append, List.mem_singleton] at member
    rcases member with old | rfl
    · exact .inr ⟨later, old, rfl, rfl⟩
    · exact .inl rfl
  | inserts | links => exact absurd rfl (other _ _ _)
  | edits shown edit =>
    intro later member
    rw [rows] at member
    obtain ⟨row, old, same⟩ := mem_update.mp member
    split at same
    next =>
      subst same
      rcases (edit_sets edit).flush_wallet row with kept | cleared
      · exact .inr ⟨row, old, rfl, kept.symm⟩
      · exact .inl cleared
    next =>
      subst same
      exact .inr ⟨row, old, rfl, rfl⟩

end step

section callback
variable {env : Settings} {curve : Secp256k1} {now : Instant} {uuid : UserId} {db : Db} {query : LnurlAuthCallbackIn}

/-- The callback treats the wallet as `holder`'s: an accepted one is bound to that
account, a login finds it, and no other account changes. -/
structure Resolves (db : Db) (query : LnurlAuthCallbackIn) (holder : User) (result : Db × LnurlCallback.Phase) : Prop where
  bound : ∀ challenge exit, result.2 = .finished (some challenge) exit → exit.outcome = .ok .ok →
    query.action ≠ some .auth → challenge.userId = some holder.id
  found : ∀ passed exit, result.2 = .finished passed exit → exit.outcome ≠ .ok userNotFound
  others : ∀ user ∈ result.1.users.rows, user.id ≠ holder.id → user ∈ db.users.rows

theorem Holds.of_key {user : User} {stored key : String} (shown : user.lnurlPubkey = some stored)
    (same : SameWallet key stored) :
    Holds user key := ⟨stored, shown, same.symm⟩

/-- A wallet that a callback finds unheld is held in no spelling. -/
theorem unheld_unknown {challenge : LnurlAuthChallenge} (spelled : SpelledAs env curve now db query)
    (verified : Verified env curve now db query challenge) (unknown : db.userByPubkey query.key = none)
    (action : query.action = some .register ∨ query.action = some .login) :
    ∀ holder ∈ db.users.rows, ¬ Holds holder query.key := by
  intro holder member holds
  have shown := spelled challenge verified holder member holds (action.imp_right .inl)
  rw [userByPubkey_some.mpr ⟨member, shown⟩] at unknown
  cases unknown

/-- A wallet that a callback links is held by no other account in any spelling. -/
theorem unheld_linked {challenge : LnurlAuthChallenge} {user : User} (spelled : SpelledAs env curve now db query)
    (verified : Verified env curve now db query challenge) (action : query.action = some .link)
    (recorded : challenge.userId = some user.id) (stored : db.userById user.id = some user)
    (unheld : ∀ holder, db.userByPubkey query.key = some holder → holder.id = user.id) :
    ∀ holder ∈ db.users.rows, holder.id ≠ user.id → ¬ Holds holder query.key := by
  intro holder member different holds
  have shown := spelled challenge verified holder member holds
    (.inr (.inr ⟨action, user, recorded, stored, different.symm⟩))
  exact different (unheld holder (userByPubkey_some.mpr ⟨member, shown⟩))

theorem callback_oneHolder (spelled : SpelledAs env curve now db query) (one : OneHolder db) :
    OneHolder (lnurlAuthCallback env curve now uuid db query).1 := by
  have effect : Effect env curve now uuid db query (lnurlAuthCallback env curve now uuid db query) := callback_effect
  generalize lnurlAuthCallback env curve now uuid db query = result at effect
  cases effect with
  | idle | binds => exact one
  | @registers challenge users verified action unknown rows =>
    have free := unheld_unknown spelled verified unknown (.inl action)
    intro first left second right key held holds
    change first ∈ users.rows at left
    change second ∈ users.rows at right
    rw [rows, List.mem_append, List.mem_singleton] at left right
    rcases left with left | rfl <;> rcases right with right | rfl
    · exact one first left second right key held holds
    · obtain ⟨stored, shown, same⟩ := holds
      cases shown
      exact absurd (.of_key held same) (free first left)
    · cases held
      exact absurd holds (free second right)
    · rfl
  | @links challenge user users verified action recorded stored unheld rows =>
    rcases rows with ⟨-, same⟩ | rows
    · exact KeepsWallets.oneHolder (.same same) one
    have free := unheld_linked spelled verified action recorded stored unheld
    intro first left second right key held holds
    change first ∈ users.rows at left
    change second ∈ users.rows at right
    rw [rows] at left right
    obtain ⟨a, aMember, rfl⟩ := mem_update.mp left
    obtain ⟨b, bMember, rfl⟩ := mem_update.mp right
    by_cases aUser : a.id = user.id <;> by_cases bUser : b.id = user.id
    · rw [db.users.valid.id.unique aMember bMember (aUser.trans bUser.symm)]
    · rw [if_pos aUser] at held
      rw [if_neg bUser] at holds
      cases held
      exact absurd holds (free b bMember bUser)
    · rw [if_neg aUser] at held
      rw [if_pos bUser] at holds
      obtain ⟨stored', shown, same⟩ := holds
      cases shown
      exact absurd (.of_key held same) (free a aMember aUser)
    · rw [if_neg aUser] at held ⊢
      rw [if_neg bUser] at holds ⊢
      exact one a aMember b bMember key held holds

theorem ok_not_missing {challenge : LnurlAuthChallenge} : (Exit.emitted .ok challenge).outcome ≠ .ok userNotFound := by
  simp [Exit.emitted, Response.ok, userNotFound, Response.error]

/-- A callback that spells the wallet as its holder's row does resolves to the holder. -/
theorem callback_resolves (spelled : SpelledAs env curve now db query) {holder : User}
    (member : holder ∈ db.users.rows) (holds : Holds holder query.key) :
    Resolves db query holder (lnurlAuthCallback env curve now uuid db query) := by
  have effect : Effect env curve now uuid db query (lnurlAuthCallback env curve now uuid db query) := callback_effect
  generalize lnurlAuthCallback env curve now uuid db query = result at effect
  cases effect with
  | idle accepted missing =>
    refine ⟨?_, ?_, fun user inside _ => inside⟩
    · intro challenge exit ended ok action
      cases ended
      exact absurd (accepted ok) action
    · intro passed exit ended absent
      cases ended
      obtain ⟨action, unknown, challenge, verified⟩ := missing absent
      exact unheld_unknown spelled verified unknown (.inr action) holder member holds
  | registers verified action unknown rows =>
    exact absurd holds (unheld_unknown spelled verified unknown (.inl action) holder member)
  | @binds challenge user verified action found =>
    have shown := spelled challenge verified holder member holds (action.imp_right .inl)
    cases found.symm.trans (userByPubkey_some.mpr ⟨member, shown⟩)
    refine ⟨?_, ?_, fun user inside _ => inside⟩
    · intro challenge exit ended accepted other
      cases ended
      rfl
    · intro passed exit ended
      cases ended
      exact ok_not_missing
  | @links challenge user users verified action recorded stored unheld rows =>
    have own : holder.id = user.id := by
      by_contra different
      exact unheld_linked spelled verified action recorded stored unheld holder member different holds
    refine ⟨?_, ?_, ?_⟩
    · intro challenge exit ended accepted other
      cases ended
      rw [own]
      exact recorded
    · intro passed exit ended
      cases ended
      exact ok_not_missing
    · intro other inside different
      change other ∈ users.rows at inside
      rcases rows with ⟨-, same⟩ | rows
      · exact same ▸ inside
      · rw [rows] at inside
        obtain ⟨row, old, rfl⟩ := mem_update.mp inside
        by_cases hit : row.id = user.id
        · rw [if_pos hit] at different
          exact absurd (hit.trans own.symm) different
        · rw [if_neg hit]
          exact old

end callback

/-- From no users, as long as every wallet is spelled as it is stored, no two
accounts hold one public key and every callback that carries it resolves to the
account that does. -/
theorem one_account_per_wallet (env : Settings) (curve : Secp256k1) (host : Host) (operations : List Operation) (final : State)
    (executed : run (step env curve host) initial operations = some final)
    (along : Along (step env curve host) (Spelled env curve) initial operations) :
    OneHolder final.db ∧
      ∀ first uuid query now second before, operations = first ++ .callback uuid query now :: second →
        run (step env curve host) initial first = some before →
        ∀ holder ∈ before.db.users.rows, Holds holder query.key →
          Resolves before.db query holder (lnurlAuthCallback env curve now uuid before.db query) := by
  constructor
  · refine run_invariant_along (fun state => OneHolder state.db) ?_ along
      (fun first member => nomatch member) executed
    intro state operation next one spelled taken
    by_cases callback : ∃ uuid query now, operation = .callback uuid query now
    · obtain ⟨uuid, query, now, rfl⟩ := callback
      cases taken
      exact callback_oneHolder spelled one
    · exact (step_wallets (fun uuid query now same => callback ⟨uuid, query, now, same⟩) taken).oneHolder one
  · rintro first uuid query now second before rfl partway holder member holds
    exact callback_resolves (along_iff.mp along first _ second before rfl partway) member holds

def spelling (key : String) (keyLength : key.length = 66) (k1 : String) (k1Length : k1.length = 64) : LnurlAuthCallbackIn where
  k1
  sig := "0000000000000009"
  key
  action := some .register
  k1Length
  sigLength := by decide
  keyLength

def lowerCase : LnurlAuthCallbackIn :=
  spelling "02aa00000000000000000000000000000000000000000000000000000000000001" String.length_ofList
    "8888888888888888888888888888888888888888888888888888888888888888" String.length_ofList

def upperCase : LnurlAuthCallbackIn :=
  spelling "02AA00000000000000000000000000000000000000000000000000000000000001" String.length_ofList
    "9999999999999999999999999999999999999999999999999999999999999999" String.length_ofList

def lowerCaseAgain : LnurlAuthCallbackIn where
  k1 := "aaaaaaaaaaaaaaaaaaaaaaaaaaaaaaaaaaaaaaaaaaaaaaaaaaaaaaaaaaaaaaaa"
  sig := lowerCase.sig
  key := lowerCase.key
  action := some .login
  k1Length := String.length_ofList
  sigLength := lowerCase.sigLength
  keyLength := lowerCase.keyLength

def otherWallet : LnurlAuthCallbackIn :=
  spelling "03bb00000000000000000000000000000000000000000000000000000000000002" String.length_ofList
    "bbbbbbbbbbbbbbbbbbbbbbbbbbbbbbbbbbbbbbbbbbbbbbbbbbbbbbbbbbbbbbbb" String.length_ofList

/-- Two wallets register, and the first one comes back. -/
def twoWallets : List Operation :=
  [.issue lowerCase.k1 .register 0, .callback 7 lowerCase 0, .issue otherWallet.k1 .register 0, .callback 8 otherWallet 0,
    .issue lowerCaseAgain.k1 .login 0, .callback 9 lowerCaseAgain 0]

/-- Accounts and challenges of which no page shows an account. -/
def stored (users : List User) (unique : UserConstraints users) (challenges : List LnurlAuthChallenge)
    (distinct : Keyed LnurlAuthChallenge.k1 challenges) : State where
  db := ⟨⟨users, unique⟩, ⟨challenges, distinct⟩⟩
  pages _ := none

def shown (query : LnurlAuthCallbackIn) (action : String) : LnurlAuthChallenge where
  k1 := query.k1
  action
  createdAt := 0

def answered (query : LnurlAuthCallbackIn) (uid : UserId) (action : String) : LnurlAuthChallenge :=
  { shown query action with consumed := true, userId := some uid }

def lowerShown : State := stored [] .nil [shown lowerCase "register"] (by decide)

def lowerRegistered : State :=
  stored [walletUser 7 lowerCase.key] (by decide) [answered lowerCase 7 "register"] (by decide)

def otherShown : State :=
  stored [walletUser 7 lowerCase.key] (by decide) [answered lowerCase 7 "register", shown otherWallet "register"] (by decide)

def otherRegistered : State :=
  stored [walletUser 7 lowerCase.key, walletUser 8 otherWallet.key] (by decide)
    [answered lowerCase 7 "register", answered otherWallet 8 "register"] (by decide)

def againShown : State :=
  stored [walletUser 7 lowerCase.key, walletUser 8 otherWallet.key] (by decide)
    [answered lowerCase 7 "register", answered otherWallet 8 "register", shown lowerCaseAgain "login"] (by decide)

def loggedIn : State :=
  stored [walletUser 7 lowerCase.key, walletUser 8 otherWallet.key] (by decide)
    [answered lowerCase 7 "register", answered otherWallet 8 "register", answered lowerCaseAgain 7 "login"] (by decide)

def upperShown : State :=
  stored [walletUser 7 lowerCase.key] (by decide) [answered lowerCase 7 "register", shown upperCase "register"] (by decide)

def upperRegistered : State :=
  stored [walletUser 7 lowerCase.key, walletUser 8 upperCase.key] (by decide)
    [answered lowerCase 7 "register", answered upperCase 8 "register"] (by decide)

theorem lowerCase_registers :
    step {} (.answering (.ok true)) .ascii lowerShown (.callback 7 lowerCase 0) = some lowerRegistered :=
  Eq.trans (step_verified ⟨rfl, rfl, verify_answering rfl rfl rfl⟩) rfl

theorem lowerCase_held : Holds (walletUser 7 lowerCase.key) lowerCase.key :=
  ⟨lowerCase.key, rfl, _, bytesFromHex_ofList rfl, bytesFromHex_ofList rfl⟩

theorem other_wallet : ¬ SameWallet lowerCase.key otherWallet.key := by
  rintro ⟨bytes, first, second⟩
  have lower : bytesFromHex lowerCase.key = .ok _ := bytesFromHex_ofList rfl
  have other : bytesFromHex otherWallet.key = .ok _ := bytesFromHex_ofList rfl
  have same := Except.ok.inj ((lower.symm.trans first).trans (second.symm.trans other))
  exact absurd (congrArg List.head? same) (by decide)

theorem wallet_returns :
    ∃ final before, run (step {} (.answering (.ok true)) .ascii) initial twoWallets = some final ∧
      run (step {} (.answering (.ok true)) .ascii) initial (twoWallets.take 5) = some before ∧ OneHolder final.db ∧
      final.db.users.rows = [walletUser 7 lowerCase.key, walletUser 8 otherWallet.key] ∧
      Resolves before.db lowerCaseAgain (walletUser 7 lowerCase.key)
        (lnurlAuthCallback {} (.answering (.ok true)) 0 9 before.db lowerCaseAgain) := by
  have issued : step {} (.answering (.ok true)) .ascii initial (.issue lowerCase.k1 .register 0) = some lowerShown := rfl
  have otherIssued : step {} (.answering (.ok true)) .ascii lowerRegistered (.issue otherWallet.k1 .register 0) =
      some otherShown := rfl
  have registers : step {} (.answering (.ok true)) .ascii otherShown (.callback 8 otherWallet 0) = some otherRegistered :=
    Eq.trans (step_verified ⟨rfl, rfl, verify_answering rfl rfl rfl⟩) rfl
  have againIssued : step {} (.answering (.ok true)) .ascii otherRegistered (.issue lowerCaseAgain.k1 .login 0) =
      some againShown := rfl
  have partway : run (step {} (.answering (.ok true)) .ascii) initial (twoWallets.take 5) = some againShown :=
    run_cons_some.mpr ⟨_, issued, run_cons_some.mpr ⟨_, lowerCase_registers, run_cons_some.mpr ⟨_, otherIssued,
      run_cons_some.mpr ⟨_, registers, run_cons_some.mpr ⟨_, againIssued, rfl⟩⟩⟩⟩⟩
  have logsIn : step {} (.answering (.ok true)) .ascii againShown (.callback 9 lowerCaseAgain 0) = some loggedIn :=
    Eq.trans (step_verified ⟨rfl, rfl, verify_answering rfl rfl rfl⟩) rfl
  have executed : run (step {} (.answering (.ok true)) .ascii) initial twoWallets = some loggedIn :=
    run_append_some.mpr ⟨againShown, partway, run_cons_some.mpr ⟨_, logsIn, rfl⟩⟩
  have one := one_account_per_wallet {} (.answering (.ok true)) .ascii twoWallets _ executed ?_
  · refine ⟨_, _, executed, partway, one.1, rfl, ?_⟩
    exact one.2 (twoWallets.take 5) 9 lowerCaseAgain 0 [] _ rfl partway _ List.mem_cons_self lowerCase_held
  · refine .cons issued trivial (.cons lowerCase_registers (fun _ _ holder member => nomatch member) (.cons otherIssued trivial
      (.cons registers ?_ (.cons againIssued trivial (.cons logsIn ?_ trivial)))))
    · intro challenge _ holder member holds
      cases List.mem_singleton.mp member
      obtain ⟨stored, shown, same⟩ := holds
      cases shown
      exact absurd same other_wallet
    · intro challenge _ holder member holds _
      rcases List.mem_cons.mp member with rfl | rest
      · rfl
      · cases List.mem_singleton.mp rest
        obtain ⟨stored, shown, same⟩ := holds
        cases shown
        exact absurd same.symm other_wallet

/-- One wallet registers twice, its key spelled in lower and in upper case. -/
theorem wallet_registers_twice :
    ∃ final, run (step {} (.answering (.ok true)) .ascii) initial
        [.issue lowerCase.k1 .register 0, .callback 7 lowerCase 0, .issue upperCase.k1 .register 0,
          .callback 8 upperCase 0] = some final ∧ ¬ OneHolder final.db := by
  have registered : step {} (.answering (.ok true)) .ascii upperShown (.callback 8 upperCase 0) = some upperRegistered :=
    Eq.trans (step_verified ⟨rfl, rfl, verify_answering rfl rfl rfl⟩) rfl
  refine ⟨upperRegistered, run_cons_some.mpr ⟨lowerShown, rfl, run_cons_some.mpr ⟨_, lowerCase_registers,
    run_cons_some.mpr ⟨upperShown, rfl, run_cons_some.mpr ⟨_, registered, rfl⟩⟩⟩⟩, ?_⟩
  intro one
  have same := one _ List.mem_cons_self _ (List.mem_cons_of_mem _ List.mem_cons_self) lowerCase.key rfl
    ⟨upperCase.key, rfl, _, bytesFromHex_ofList rfl, bytesFromHex_ofList rfl⟩
  exact absurd (congrArg User.id same) (by decide)

end Satoidc.Proofs.WalletIdentity
